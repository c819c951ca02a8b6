import Switchyard.Proofs.Proxy.Sending

/-! What a body has to be to be taken, and what a request leaves behind whose body is not. The
length of a body decides, not the way it is cut into chunks. A request that is turned away leaves
an exchange that is over and its line in the traffic counts. It has a number, so that later
exchanges are numbered one higher; apart from that a proxy goes on beside it as it would have
without it. -/
namespace Switchyard

open Http (Request Inflow)

/-! ### Too long a body -/

/-- Whether the chunks up to some point are more than there is room for. -/
def Http.Inflow.Overflows (room : Nat) (chunks : List Bytes) : Prop :=
  ∃ front, front <+: chunks ∧ room < front.flatten.length

theorem Http.Inflow.overflows_iff {room : Nat} {chunks : List Bytes} :
    Overflows room chunks ↔ room < chunks.flatten.length := by
  constructor
  · rintro ⟨front, ⟨rest, rfl⟩, hlong⟩
    rw [List.flatten_append, List.length_append]
    exact Nat.lt_add_right _ hlong
  · exact fun hlong => ⟨chunks, List.prefix_rfl, hlong⟩

theorem Http.Inflow.read_of_overflows {body : Inflow} {limit : Nat}
    (h : Overflows limit body.chunks) : body.read limit = .tooLong := by
  rw [read, collect_eq, if_pos (overflows_iff.1 h)]

theorem Http.Inflow.read_of_fits {body : Inflow} {limit : Nat}
    (h : ¬ Overflows limit body.chunks) :
    body.read limit = body.failure.elim (.whole body.chunks.flatten) .failed := by
  rw [read, collect_eq, if_neg (mt overflows_iff.2 h)]

/-- A body of exactly the length there is room for is taken. -/
example : Inflow.read { chunks := [[1], [], [2, 3]] } 3 = .whole [1, 2, 3] := by decide

/-! ### An exchange more -/

/-- The number that an exchange has when one more has been put before number `n`. -/
def past (n k : Nat) : Nat := if k < n then k else k + 1

theorem past_inj {n j k : Nat} : past n j = past n k ↔ j = k := by
  unfold past
  split <;> split <;> omega

theorem getElem?_concat_eq_none {α : Type} {l : List α} {a : α} {k : Nat} (h : l.length < k) :
    (l ++ [a])[k]? = none := List.getElem?_eq_none (by rw [List.length_append]; exact h)

namespace Proxy

/-- One proxy is as another, but has an exchange more, which has number `n`. -/
structure Beside (n : Nat) (p q : Proxy) : Prop where
  balancer : q.balancer = p.balancer
  le : n ≤ p.exchanges.length
  size : q.exchanges.length = p.exchanges.length + 1
  same (k : Nat) : q.exchanges[past n k]? = p.exchanges[k]?

namespace Beside

variable {n : Nat} {p q : Proxy}

theorem set (h : Beside n p q) (k j : Nat) (e : Exchange) :
    (q.exchanges.set (past n k) e)[past n j]? = (p.exchanges.set k e)[j]? := by
  by_cases hkj : k = j
  · subst hkj
    rw [List.getElem?_set_self', List.getElem?_set_self', h.same]
  · rw [List.getElem?_set_ne hkj, List.getElem?_set_ne (mt past_inj.1 hkj), h.same]

theorem perform (h : Beside n p q) (k now : Nat) (e : Exchange) (m : Move) :
    Beside n (p.perform k now e m) (q.perform (past n k) now e m) where
  balancer := by simp only [Proxy.perform, h.balancer]
  le := by simpa [Proxy.perform] using h.le
  size := by simpa [Proxy.perform] using h.size
  same j := h.set k j _

theorem start (h : Beside n p q) (service : String) (now : Nat) :
    Beside n (p.start service now).1 (q.start service now).1 where
  balancer := h.balancer
  le := by
    have := h.le
    simp only [Proxy.start, List.length_append, List.length_singleton]
    omega
  size := by simpa [Proxy.start] using h.size
  same k := by
    have hn := h.le
    have hsize := h.size
    simp only [Proxy.start]
    rcases Nat.lt_trichotomy k p.exchanges.length with hk | rfl | hk
    · have hpast : past n k < q.exchanges.length := by
        unfold past
        split <;> omega
      rw [List.getElem?_append_left hk, List.getElem?_append_left hpast, h.same]
    · have hpast : past n p.exchanges.length = q.exchanges.length := by
        rw [past, if_neg (by omega), hsize]
      rw [hpast, List.getElem?_concat_length, List.getElem?_concat_length]
    · have hpast : past n k = k + 1 := if_neg (by omega)
      rw [hpast, getElem?_concat_eq_none (by omega), getElem?_concat_eq_none hk]

theorem act (h : Beside n p q) (k now : Nat) (a : Act) :
    Beside n (p.act k now a) (q.act (past n k) now a) := by
  cases he : p.exchanges[k]? with
  | none =>
    rw [act_of_none a he, act_of_none a ((h.same k).trans he)]
    exact h
  | some e =>
    rw [act_eq a he, act_eq a ((h.same k).trans he)]
    cases a.move? e.stage with
    | none => exact h
    | some m => exact h.perform k now e m

/-- The same instance is chosen for an exchange, if one is. -/
theorem engage (h : Beside n p q) (k now draw : Nat) (healthy : List Instance) :
    Beside n (p.engage k now draw healthy).state (q.engage (past n k) now draw healthy).state ∧
      (q.engage (past n k) now draw healthy).answer.toOption =
        (p.engage k now draw healthy).answer.toOption := by
  have hsame := h.same k
  by_cases hreads : ∃ e, p.exchanges[k]? = some e ∧ e.stage = .reading
  · obtain ⟨e, he, hread⟩ := hreads
    have he' := hsame.trans he
    cases hi : p.balancer.choose e.service draw healthy with
    | none =>
      have hi' : q.balancer.choose e.service draw healthy = none := by rw [h.balancer, hi]
      obtain ⟨hp, hnone⟩ := @engage_of_none p k now e draw healthy he hread hi
      obtain ⟨hq, hnone'⟩ := @engage_of_none q _ now e draw healthy he' hread hi'
      rw [hp, hq, hnone, hnone']
      exact ⟨h.perform k now e _, rfl⟩
    | some i =>
      have hi' : q.balancer.choose e.service draw healthy = some i := by rw [h.balancer, hi]
      obtain ⟨hp, hsome⟩ := @engage_of_some p k now e draw healthy i he hread hi
      obtain ⟨hq, hsome'⟩ := @engage_of_some q _ now e draw healthy i he' hread hi'
      rw [hp, hq, hsome, hsome']
      refine ⟨⟨?_, ?_, ?_, fun j => h.set k j _⟩, rfl⟩
      · simp only [h.balancer]
      · simpa using h.le
      · simpa using h.size
  · have hnot : ∀ e, p.exchanges[k]? = some e → e.stage ≠ .reading :=
      fun e he hread => hreads ⟨e, he, hread⟩
    obtain ⟨fault, hp⟩ := engage_of_not_reading now draw healthy hnot
    obtain ⟨fault', hq⟩ := engage_of_not_reading now draw healthy (hsame ▸ hnot)
    rw [hp, hq]
    exact ⟨h, rfl⟩

end Beside

end Proxy

namespace Forwarding

/-- A call as it is where one more exchange has been put before number `n`. -/
def Call.past (n : Nat) : Call → Call
  | .engage k draw => .engage (Switchyard.past n k) draw
  | .act k a => .act (Switchyard.past n k) a
  | c => c

/-- The lease that a call takes, if it takes one. -/
def taken (f : Forwarding) (e : Nat × Call) : List Lease :=
  match e.2 with
  | .select service draw => (f.choice service draw).answer.toOption.toList
  | .engage k draw => (f.engagement k e.1 draw).answer.toOption.toList
  | _ => []

/-- The leases that are taken in a run, in the order of the choices. -/
def takings (f : Forwarding) (calls : List (Nat × Call)) : List Lease := observed step taken f calls

structure Beside (n : Nat) (f f' : Forwarding) : Prop where
  registry : f'.registry = f.registry
  leases : f'.leases = f.leases
  proxy : Proxy.Beside n f.proxy f'.proxy

namespace Beside

variable {n : Nat} {f f' : Forwarding}

theorem choice (h : Beside n f f') (service : String) (draw : Nat) :
    f'.choice service draw = f.choice service draw := by
  rw [Forwarding.choice, Forwarding.choice, h.registry, h.proxy.balancer]

theorem engagement (h : Beside n f f') (k now draw : Nat) :
    Proxy.Beside n (f.engagement k now draw).state (f'.engagement (past n k) now draw).state ∧
      (f'.engagement (past n k) now draw).answer.toOption =
        (f.engagement k now draw).answer.toOption := by
  have hservice : f'.serviceOf (past n k) = f.serviceOf k := by
    rw [serviceOf, serviceOf, h.proxy.same]
  rw [Forwarding.engagement, Forwarding.engagement, hservice, h.registry]
  exact h.proxy.engage k now draw _

/-- A call takes the same lease and keeps the two beside each other. -/
theorem step (h : Beside n f f') (now : Nat) (c : Call) :
    f'.taken (now, c.past n) = f.taken (now, c) ∧
      Beside n (f.step (now, c)) (f'.step (now, c.past n)) := by
  cases c with
  | change moment c =>
    refine ⟨rfl, ?_, h.leases, h.proxy⟩
    simp only [Forwarding.step, Call.past, h.registry]
  | select service draw =>
    have hchoice := h.choice service draw
    refine ⟨by simp only [taken, Call.past, hchoice], h.registry, ?_, ?_⟩
    · simp only [Forwarding.step, Call.past, hchoice, h.leases]
    · exact ⟨congrArg (·.state) hchoice, h.proxy.le, h.proxy.size, h.proxy.same⟩
  | release place =>
    refine ⟨rfl, ?_⟩
    simp only [Forwarding.step, Call.past, h.leases]
    cases f.leases[place]? with
    | none => exact h
    | some l =>
      refine ⟨h.registry, rfl, ?_, h.proxy.le, h.proxy.size, h.proxy.same⟩
      simp only [Proxy.release, h.proxy.balancer]
  | start service => exact ⟨rfl, h.registry, h.leases, h.proxy.start service now⟩
  | engage k draw =>
    obtain ⟨hproxy, hanswer⟩ := h.engagement k now draw
    exact ⟨congrArg Option.toList hanswer, h.registry, h.leases, hproxy⟩
  | act k a => exact ⟨rfl, h.registry, h.leases, h.proxy.act k now a⟩

/-- A run takes the same leases. -/
theorem run (h : Beside n f f') (calls : List (Nat × Call)) :
    f'.takings (calls.map fun e => (e.1, e.2.past n)) = f.takings calls ∧
      Beside n (f.run calls) (f'.run (calls.map fun e => (e.1, e.2.past n))) := by
  induction calls generalizing f f' with
  | nil => exact ⟨rfl, h⟩
  | cons e rest ih =>
    obtain ⟨htaken, hstep⟩ := h.step e.1 e.2
    obtain ⟨htakings, hrun⟩ := ih hstep
    refine ⟨?_, hrun⟩
    rw [List.map_cons, takings, takings, observed, observed, htaken]
    exact congrArg _ htakings

end Beside

end Forwarding

namespace Api

/-- The gateway after a request for a service whose body it could not take. -/
def turnedAway (g : Gateway) (service : String) (f : Fault) : Gateway :=
  { g with
    proxy := { g.proxy with
      traffic := (g.proxy.traffic.started service).ended service 0 f.status
      exchanges := g.proxy.exchanges ++ [{ service, begun := g.nanos, stage := .over }] } }

theorem beside_turnedAway (g : Gateway) (service : String) (f : Fault) :
    g.proxy.Beside g.proxy.exchanges.length (turnedAway g service f).proxy where
  balancer := rfl
  le := Nat.le_refl _
  size := List.length_append
  same k := by
    simp only [turnedAway, past]
    split
    · rename_i hk
      rw [List.getElem?_append_left hk]
    · rename_i hk
      rw [List.getElem?_eq_none (Nat.le_of_not_lt hk), getElem?_concat_eq_none (by omega)]

variable {g : Gateway} {service path : String} {r : Request} {patience : Option Nat}

theorem turnAway_start (p : Proxy) (service : String) (now : Nat) (f : Fault) :
    (p.start service now).1.turnAway p.exchanges.length now f =
      { p with
        traffic := (p.traffic.started service).ended service 0 f.status
        exchanges := p.exchanges ++ [{ service, begun := now, stage := .over }] } := by
  have he : (p.start service now).1.exchanges[p.exchanges.length]? =
      some { service, begun := now } := List.getElem?_concat_length
  have hact := @Proxy.act_eq _ _ now _ (.turnAway f) he
  rw [Proxy.act] at hact
  rw [hact]
  simp [Proxy.Act.move?, Proxy.perform, Proxy.Closing.book, Proxy.start, Proxy.age]

theorem forward_of_tooLong (h : r.body.read g.settings.proxy.maxBodyBytes.toNat = .tooLong) :
    let f : Fault := .payloadTooLarge g.settings.proxy.maxBodyBytes.toNat
    forward g service path r patience =
      (turnedAway g service f, ⟨some (Proxy.refusal f), [], none⟩) := by
  intro f
  simp only [forward, h]
  rw [turnedAway, ← turnAway_start]
  rfl

theorem forward_of_failed {reason : String}
    (h : r.body.read g.settings.proxy.maxBodyBytes.toNat = .failed reason) :
    let f : Fault := .requestBody reason
    forward g service path r patience =
      (turnedAway g service f, ⟨some (Proxy.refusal f), [], none⟩) := by
  intro f
  simp only [forward, h]
  rw [turnedAway, ← turnAway_start]
  rfl

/-- A body that is whole goes on to the choice of an instance. -/
theorem forward_of_whole {body : Bytes}
    (hbody : r.body.read g.settings.proxy.maxBodyBytes.toNat = .whole body) :
    let n := g.proxy.exchanges.length
    let o := (g.proxy.start service g.nanos).1.engage n g.nanos g.draw (g.registry.healthy service)
    let chosen := { g with proxy := o.state, draw := g.draw + 1 }.say o.notices
    forward g service path r patience =
      match o.answer with
      | .error f => (chosen, ⟨some (Proxy.refusal f), [], none⟩)
      | .ok l =>
        let target := Target.url l.chosen path r.query
        let j := Proxy.dispatch g.network g.settings.proxyTimeout l.chosen path r body
        settleExchange
          { chosen.say [.forwarding service l.chosen.id r.method target] with network := j.network }
          n l target j patience := by
  simp only [forward, hbody]
  rfl

/-- A request that no instance is healthy for is turned away too, but says so. -/
theorem forward_of_unavailable {body : Bytes}
    (hbody : r.body.read g.settings.proxy.maxBodyBytes.toNat = .whole body)
    (hi : g.proxy.balancer.choose service g.draw (g.registry.healthy service) = none) :
    let f : Fault := .serviceNotAvailable service
    forward g service path r patience =
      ({ turnedAway g service f with draw := g.draw + 1 }.say [.noneHealthy service],
        ⟨some (Proxy.refusal f), [], none⟩) := by
  intro f
  have he : (g.proxy.start service g.nanos).1.exchanges[g.proxy.exchanges.length]? =
      some { service, begun := g.nanos } := List.getElem?_concat_length
  obtain ⟨hstate, hanswer⟩ := @Proxy.engage_of_none _ _ g.nanos _ _ _ he rfl hi
  have hnotices := @Proxy.notices_engage_of_none _ _ g.nanos _ _ _ he rfl hi
  rw [forward_of_whole hbody]
  dsimp only
  rw [hanswer, hstate, hnotices]
  simp [turnedAway, Gateway.say, Proxy.perform, Proxy.Closing.book, Proxy.start, Proxy.age, f]

/-- With a whole body the choice for the request is the balancer's next. -/
theorem forward_chooses {body : Bytes}
    (hbody : r.body.read g.settings.proxy.maxBodyBytes.toNat = .whole body) :
    let s := forward g service path r patience
    let o := g.proxy.balancer.select service g.draw (g.registry.healthy service)
    (∀ other, s.1.proxy.balancer.cursor other = o.state.cursor other) ∧
      (∀ f, o.answer = .error f → s.2 = ⟨some (Proxy.refusal f), [], none⟩) ∧
      ∀ l, o.answer = .ok l →
        s.2 = arrival l.chosen g.proxy.exchanges.length
          (Proxy.dispatch g.network g.settings.proxyTimeout l.chosen path r body) patience := by
  intro s o
  have hanswer : o.answer = _ := g.proxy.balancer.select_answer service g.draw _
  have hcursor (other : String) : s.1.proxy.balancer.cursor other = o.state.cursor other := by
    rw [cursor_forward, Balancer.cursor_select, journey?, hbody]
    simp only [Option.isSome_map]
  rw [hanswer]
  cases hi : g.proxy.balancer.choose service g.draw (g.registry.healthy service) with
  | none =>
    refine ⟨hcursor, fun f hf => ?_, fun l hl => ?_⟩
    · cases hf
      exact congrArg (·.2) (forward_of_unavailable hbody hi)
    · cases hl
  | some i =>
    refine ⟨hcursor, fun f hf => ?_, fun l hl => ?_⟩
    · cases hf
    · cases hl
      exact forward_of_chosen hbody hi patience

/-- Of a body only what is read of it matters. -/
theorem forward_congr {body : Inflow}
    (h : body.read g.settings.proxy.maxBodyBytes.toNat =
      r.body.read g.settings.proxy.maxBodyBytes.toNat) :
    forward g service path { r with body } patience = forward g service path r patience := by
  simp only [forward, h, Proxy.dispatch]

/-- The first request that goes out carries the whole body. -/
theorem body_of_first {first : Outbound}
    (h : (forward g service path r patience).2.requests.head? = some first) :
    first.body = r.body.chunks.flatten := by
  obtain ⟨i, body, -, hbody, hout⟩ := first_of_forward h
  obtain ⟨url, -, rfl⟩ := Option.map_eq_some_iff.1 hout
  exact (Inflow.collect_iff.1 hbody).2.1

/-- What becomes of a body is a matter of its bytes: one that is too long or breaks off is turned
away and leaves no trace in any later choice, and any other goes on to the choice and out to the
instance as it is. -/
theorem takes_bodies_by_bytes (g : Gateway) (service path : String) (r : Request)
    (patience : Option Nat) :
    let limit := g.settings.proxy.maxBodyBytes.toNat
    let n := g.proxy.exchanges.length
    let s := forward g service path r patience
    let refusedBy (f : Fault) := s = (turnedAway g service f, ⟨some (Proxy.refusal f), [], none⟩)
    (Inflow.Overflows limit r.body.chunks →
      refusedBy (.payloadTooLarge limit) ∧ s.2.response.map (·.status) = some 413) ∧
    (¬ Inflow.Overflows limit r.body.chunks → ∀ reason, r.body.failure = some reason →
      refusedBy (.requestBody reason) ∧ s.2.response.map (·.status) = some 400) ∧
    (¬ Inflow.Overflows limit r.body.chunks → r.body.failure = none →
      let o := g.proxy.balancer.select service g.draw (g.registry.healthy service)
      (∀ other, s.1.proxy.balancer.cursor other = o.state.cursor other) ∧
      (∀ f, o.answer = .error f → s.2 = ⟨some (Proxy.refusal f), [], none⟩) ∧
      ∀ l, o.answer = .ok l →
        s.2 = arrival l.chosen n (Proxy.dispatch g.network g.settings.proxyTimeout l.chosen path r
          r.body.chunks.flatten) patience ∧
        ∀ first, s.2.requests.head? = some first → first.body = r.body.chunks.flatten) ∧
    (∀ body : Inflow, body.failure = none → r.body.failure = none →
      body.chunks.flatten = r.body.chunks.flatten →
      forward g service path { r with body } patience = s) ∧
    -- whatever is done later, the leases are the same after a request that is turned away as
    -- without it, and so are the counts and the cursors
    ∀ f leases calls,
      let later := calls.map fun e => (e.1, Forwarding.Call.past n e.2)
      let without : Forwarding := ⟨g.registry, g.proxy, leases⟩
      let after : Forwarding :=
        ⟨(turnedAway g service f).registry, (turnedAway g service f).proxy, leases⟩
      after.takings later = without.takings calls ∧
        (after.run later).proxy.balancer = (without.run calls).proxy.balancer := by
  intro limit n s refusedBy
  refine ⟨fun hlong => ?_, fun hfits reason hreason => ?_, fun hfits hnone => ?_,
    fun body hend hnone hbytes => forward_congr ?_, fun f leases calls => ?_⟩
  · have hrefused : refusedBy (.payloadTooLarge limit) :=
      forward_of_tooLong (Inflow.read_of_overflows hlong)
    exact ⟨hrefused, by rw [hrefused]; rfl⟩
  · have hrefused : refusedBy (.requestBody reason) :=
      forward_of_failed (by rw [Inflow.read_of_fits hfits, hreason]; rfl)
    exact ⟨hrefused, by rw [hrefused]; rfl⟩
  · have hbody : r.body.read limit = .whole r.body.chunks.flatten := by
      rw [Inflow.read_of_fits hfits, hnone]
      rfl
    obtain ⟨hcursor, hrefused, hserved⟩ := forward_chooses hbody
    exact ⟨hcursor, hrefused, fun l hl => ⟨hserved l hl, fun first => body_of_first⟩⟩
  · rw [Inflow.read, Inflow.read, Inflow.collect_eq, Inflow.collect_eq, hend, hnone, hbytes]
  · have hbeside : Forwarding.Beside n ⟨g.registry, g.proxy, leases⟩
        ⟨(turnedAway g service f).registry, (turnedAway g service f).proxy, leases⟩ :=
      ⟨rfl, rfl, beside_turnedAway g service f⟩
    obtain ⟨htakings, hrun⟩ := hbeside.run calls
    exact ⟨htakings, hrun.proxy.balancer⟩

end Api

end Switchyard
