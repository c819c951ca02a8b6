import Switchyard.Api.Respond
import Switchyard.Proofs.Gateway.Background
import Switchyard.Proofs.Proxy.Leases

/-! A request from its beginning to its response: which calls of the proxy it amounts to, and
what they leave in the counts of the balancer. -/
namespace Switchyard

namespace Api

open Proxy (Act)
open Forwarding (Call)

/-! ### The course of a request -/

/-- How an exchange that waits goes on: the act that it comes to, and what the caller gets. -/
inductive Settles (n : Nat) : Act → Served → Prop where
  | relayed (status : Nat) (response : Http.Response) (requests : List Outbound)
      (h : response.status = status) :
      Settles n (.relay status) ⟨some response, requests, some n⟩
  | failed (fault : Fault) (requests : List Outbound) :
      Settles n (.giveUp fault) ⟨some (Proxy.refusal fault), requests, none⟩
  | left (requests : List Outbound) : Settles n .cancel ⟨none, requests, none⟩

theorem settles (g : Gateway) (n : Nat) (l : Lease) (target : String) (j : Journey)
    (patience : Option Nat) :
    ∃ t a, (settleExchange g n l target j patience).1.proxy = g.proxy.act n t a ∧
      Settles n a (settleExchange g n l target j patience).2 := by
  unfold settleExchange
  split
  · refine ⟨(g.sleep (patience.getD 0)).nanos, .cancel, ?_, .left _⟩
    rw [← g.sleep_proxy (patience.getD 0)]
    rfl
  · have hsleep := g.sleep_proxy j.elapsed
    cases j.result with
    | ok reply =>
      refine ⟨(g.sleep j.elapsed).nanos, .relay reply.status, ?_, .relayed _ _ _ rfl⟩
      rw [← hsleep]
      rfl
    | error fault =>
      refine ⟨(g.sleep j.elapsed).nanos, .giveUp (Proxy.fault l.chosen fault), ?_, .failed _ _⟩
      rw [← hsleep]
      rfl

/-- What becomes of exchange `n`, which has just begun: the calls that follow, and what the
caller gets. -/
inductive Course (f : Forwarding) (n now draw : Nat) : List (Nat × Call) → Served → Prop where
  | turnedAway (fault : Fault) :
      Course f n now draw [(now, .act n (.turnAway fault))] ⟨some (Proxy.refusal fault), [], none⟩
  | refused (fault : Fault) (h : (f.engagement n now draw).answer = .error fault) :
      Course f n now draw [(now, .engage n draw)] ⟨some (Proxy.refusal fault), [], none⟩
  | engaged (l : Lease) (t : Nat) (a : Act) (served : Served)
      (h : (f.engagement n now draw).answer = .ok l) (hs : Settles n a served) :
      Course f n now draw [(now, .engage n draw), (t, .act n a)] served

theorem Course.keeps {f : Forwarding} {n now draw : Nat} {rest : List (Nat × Call)}
    {served : Served} (h : Course f n now draw rest served) :
    (f.run rest).registry = f.registry ∧ (f.run rest).leases = f.leases := by
  cases h <;> exact ⟨rfl, rfl⟩

/-- The tasks in the background may change the registry while a response is waited for. -/
theorem settleExchange_reaches (g : Gateway) (n : Nat) (l : Lease) (target : String)
    (j : Journey) (patience : Option Nat) :
    g.registry.Reaches (settleExchange g n l target j patience).1.registry := by
  unfold settleExchange
  split
  · exact g.sleep_reaches _
  · cases j.result <;> exact g.sleep_reaches _

theorem forward_reaches (g : Gateway) (service path : String) (r : Http.Request)
    (patience : Option Nat) :
    g.registry.Reaches (forward g service path r patience).1.registry := by
  unfold forward
  dsimp only
  split
  · exact .refl _
  · exact .refl _
  · split
    · exact .refl _
    · exact settleExchange_reaches _ _ _ _ _ _

section

variable {g : Gateway} {f : Forwarding}

/-- What becomes of a request: its body is not taken, or there is no instance for it, or there is
one and the request waits for its response. -/
theorem forward_cases (hr : g.registry = f.registry) (hp : g.proxy = f.proxy)
    (service path : String) (r : Http.Request) (patience : Option Nat) :
    let n := f.proxy.exchanges.length
    let body := r.body.read g.settings.proxy.maxBodyBytes.toNat
    let begun := f.step (g.nanos, .start service)
    let chosen := begun.engagement n g.nanos g.draw
    let o := forward g service path r patience
    (∃ fault, (∀ bytes, body ≠ .whole bytes) ∧
      o.1.proxy = begun.proxy.act n g.nanos (.turnAway fault) ∧
      o.2 = ⟨some (Proxy.refusal fault), [], none⟩) ∨
    (∃ bytes fault, body = .whole bytes ∧ chosen.answer = .error fault ∧
      o.1.proxy = chosen.state ∧ o.2 = ⟨some (Proxy.refusal fault), [], none⟩) ∨
    ∃ bytes l, body = .whole bytes ∧ chosen.answer = .ok l ∧
      ∃ waits : Gateway, waits.proxy = chosen.state ∧
        o = settleExchange waits n l (Target.url l.chosen path r.query)
          (Proxy.dispatch g.network g.settings.proxyTimeout l.chosen path r bytes) patience := by
  obtain ⟨registry, proxy, leases⟩ := f
  dsimp only at hr hp
  subst hr hp
  intro n body begun chosen o
  have hservice : begun.serviceOf n = service := by
    simp [begun, n, Forwarding.serviceOf, Forwarding.step, Proxy.start]
  have hengage : (g.proxy.start service g.nanos).1.engage n g.nanos g.draw
      (g.registry.healthy service) = chosen := by
    simp only [chosen, Forwarding.engagement, hservice]
    rfl
  obtain ⟨x, hx⟩ : ∃ x, forward g service path r patience = x := ⟨_, rfl⟩
  have ho : o = x := hx
  rw [ho]
  unfold forward at hx
  dsimp only at hx
  split at hx
  · rename_i hbody
    subst hx
    exact .inl ⟨_, fun bytes h => (by cases hbody.symm.trans h), rfl, rfl⟩
  · rename_i hbody
    subst hx
    exact .inl ⟨_, fun bytes h => (by cases hbody.symm.trans h), rfl, rfl⟩
  · rename_i bytes hbody
    have hstate := congrArg (·.state) hengage
    split at hx
    · rename_i fault hanswer
      subst hx
      exact .inr (.inl ⟨bytes, fault, hbody, (congrArg (·.answer) hengage).symm.trans hanswer,
        hstate, rfl⟩)
    · rename_i l hanswer
      exact .inr (.inr ⟨bytes, l, hbody, (congrArg (·.answer) hengage).symm.trans hanswer, _,
        hstate, hx.symm⟩)

theorem forward_course (hr : g.registry = f.registry) (hp : g.proxy = f.proxy)
    (service path : String) (r : Http.Request) (patience : Option Nat) :
    ∃ rest,
      (forward g service path r patience).1.proxy =
        (f.run ((g.nanos, .start service) :: rest)).proxy ∧
      Course (f.step (g.nanos, .start service)) f.proxy.exchanges.length g.nanos g.draw rest
        (forward g service path r patience).2 := by
  rcases forward_cases hr hp service path r patience with
    ⟨fault, -, hproxy, hserved⟩ | ⟨bytes, fault, -, hanswer, hproxy, hserved⟩ |
      ⟨bytes, l, -, hanswer, waits, hwaits, hsettled⟩
  · exact ⟨[(g.nanos, .act _ (.turnAway fault))], hproxy, by rw [hserved]; exact .turnedAway fault⟩
  · exact ⟨[(g.nanos, .engage _ g.draw)], hproxy, by rw [hserved]; exact .refused fault hanswer⟩
  · obtain ⟨t, a, hproxy, hsettles⟩ := settles waits f.proxy.exchanges.length l
      (Target.url l.chosen path r.query)
      (Proxy.dispatch g.network g.settings.proxyTimeout l.chosen path r bytes) patience
    rw [hwaits] at hproxy
    rw [hsettled]
    exact ⟨[(g.nanos, .engage _ g.draw), (t, .act _ a)], hproxy,
      .engaged l t a _ hanswer hsettles⟩

/-- Forwarding a request is a run of the proxy and of its registry. -/
theorem forward_run (hr : g.registry = f.registry) (hp : g.proxy = f.proxy)
    (service path : String) (r : Http.Request) (patience : Option Nat) :
    let o := forward g service path r patience
    ∃ rest cs,
      (f.run ((g.nanos, .start service) :: rest)).run (Forwarding.changes cs) =
        ⟨o.1.registry, o.1.proxy, f.leases⟩ ∧
      Course (f.step (g.nanos, .start service)) f.proxy.exchanges.length g.nanos g.draw rest
        o.2 := by
  intro o
  obtain ⟨rest, hrun, hcourse⟩ := forward_course hr hp service path r patience
  obtain ⟨cs, hcs⟩ := forward_reaches g service path r patience
  obtain ⟨hregistry, hleases⟩ := hcourse.keeps
  refine ⟨rest, cs, ?_, hcourse⟩
  have hchanged : (f.registry.run cs).1 = o.1.registry := by rw [hcs, hr]
  rw [Forwarding.run_changes, Forwarding.run_cons, hregistry, hleases, ← Forwarding.run_cons,
    ← hrun]
  exact congrArg (Forwarding.mk · o.1.proxy f.leases) hchanged

end

/-! ### The lease of a request -/

section

variable {g : Gateway} {f : Forwarding} {n now draw : Nat} {l : Lease}

/-- The reply that a caller gets who has this patience. -/
def reply? (j : Journey) (patience : Option Nat) : Option Reply :=
  if patience.any (· < j.elapsed) then none else j.result.toOption

/-- A request that waits keeps its lease for a response that is passed on, and else gives it
back. -/
theorem settleExchange_lease (hwait : g.proxy.stage? n = some (.waiting l)) (target : String)
    (j : Journey) (patience : Option Nat) :
    let o := settleExchange g n l target j patience
    (∀ reply, reply? j patience = some reply →
      o.2.response = some (Proxy.response reply) ∧ o.2.exchange = some n ∧
      o.1.proxy.stage? n = some (.relaying l) ∧ o.1.proxy.balancer = g.proxy.balancer) ∧
    (reply? j patience = none →
      o.2.exchange = none ∧ o.1.proxy.stage? n = some .over ∧
      o.1.proxy.balancer = g.proxy.balancer.release l) := by
  obtain ⟨e, he, hstage⟩ := Option.map_eq_some_iff.1 hwait
  obtain ⟨hn, -⟩ := List.getElem?_eq_some_iff.1 he
  have hmoved (millis t : Nat) (a : Act) {m : Proxy.Move} (hm : a.move? (.waiting l) = some m) :
      ((g.sleep millis).proxy.act n t a).stage? n = some m.stage ∧
        ((g.sleep millis).proxy.act n t a).balancer =
          m.back.elim g.proxy.balancer g.proxy.balancer.release := by
    rw [g.sleep_proxy, Proxy.act_eq a he, hstage, hm]
    simp [Proxy.perform, Proxy.stage?, hn]
  unfold reply? settleExchange
  split
  · have hleft := hmoved (patience.getD 0) (g.sleep (patience.getD 0)).nanos .cancel rfl
    refine ⟨fun _ hreply => ?_, fun _ => ⟨rfl, hleft⟩⟩
    cases hreply
  · cases j.result with
    | ok reply =>
      have hrelayed := hmoved j.elapsed (g.sleep j.elapsed).nanos (.relay reply.status) rfl
      refine ⟨fun _ hreply => ?_, fun hnone => ?_⟩
      · cases hreply
        exact ⟨rfl, rfl, hrelayed⟩
      · cases hnone
    | error t =>
      have hfailed := hmoved j.elapsed (g.sleep j.elapsed).nanos
        (.giveUp (Proxy.fault l.chosen t)) rfl
      refine ⟨fun _ hreply => ?_, fun _ => ⟨rfl, hfailed⟩⟩
      cases hreply

/-- The counts while a request waits are those before it and one more for its instance. -/
theorem held_of_engaged (h : (f.engagement n now draw).answer = .ok l) (id : String) :
    (f.step (now, .engage n draw)).proxy.balancer.held id =
      if id = l.chosen.id then f.proxy.balancer.held id + 1 else f.proxy.balancer.held id := by
  obtain ⟨e, -, -, hi, hstate⟩ := Forwarding.engagement_of_ok h
  rw [Forwarding.engage_proxy, hstate]
  exact Balancer.held_select f.proxy.balancer e.service draw hi id

/-- A lease that goes back leaves the counts as they were before it. -/
theorem held_release_of_engaged (h : (f.engagement n now draw).answer = .ok l) (id : String) :
    ((f.step (now, .engage n draw)).proxy.balancer.release l).held id =
      f.proxy.balancer.held id := by
  obtain ⟨e, -, -, hi, hstate⟩ := Forwarding.engagement_of_ok h
  rw [Forwarding.engage_proxy, hstate]
  exact Balancer.held_release_select _ _ _ hi id

/-- A request that is not taken up is over at once, and the balancer is as it was. -/
theorem forward_of_untaken (hr : g.registry = f.registry) (hp : g.proxy = f.proxy)
    {service : String} {r : Http.Request}
    (h : ∀ bytes l, r.body.read g.settings.proxy.maxBodyBytes.toNat = .whole bytes →
      ((f.step (g.nanos, .start service)).engagement f.proxy.exchanges.length g.nanos
        g.draw).answer ≠ .ok l)
    (path : String) (patience : Option Nat) :
    let o := forward g service path r patience
    o.2.exchange = none ∧ o.1.proxy.stage? f.proxy.exchanges.length = some .over ∧
      o.1.proxy.balancer = f.proxy.balancer := by
  intro o
  have hbegun : (f.step (g.nanos, .start service)).proxy.exchanges[f.proxy.exchanges.length]? =
      some { service, begun := g.nanos } := List.getElem?_concat_length
  have hreading := Proxy.stage?_eq hbegun
  rcases forward_cases hr hp service path r patience with
    ⟨fault, -, hproxy, hserved⟩ | ⟨bytes, fault, -, hanswer, hproxy, hserved⟩ |
      ⟨bytes, l, hbody, hanswer, -⟩
  · have hover := Forwarding.stage?_act hreading g.nanos f.proxy.exchanges.length (.turnAway fault)
    rw [if_pos rfl, Forwarding.act_proxy, ← hproxy] at hover
    have hact := hproxy.trans (Proxy.act_eq _ hbegun)
    exact ⟨congrArg (·.exchange) hserved, hover, congrArg (·.balancer) hact⟩
  · have hover := Forwarding.stage?_engage hreading g.nanos f.proxy.exchanges.length g.draw
    rw [if_pos ⟨rfl, rfl⟩, hanswer, Forwarding.engage_proxy, ← hproxy] at hover
    have hbalancer := Forwarding.engagement_of_error hanswer
    exact ⟨congrArg (·.exchange) hserved, hover, (congrArg (·.balancer) hproxy).trans hbalancer⟩
  · exact absurd hanswer (h bytes l hbody)

/-- A request that an instance is chosen for waits with the lease that it has got, and keeps it for
a response that is passed on. -/
theorem forward_of_taken (hr : g.registry = f.registry) (hp : g.proxy = f.proxy)
    {service : String} {r : Http.Request} {bytes : Bytes}
    (hbody : r.body.read g.settings.proxy.maxBodyBytes.toNat = .whole bytes)
    (hl : ((f.step (g.nanos, .start service)).engagement f.proxy.exchanges.length g.nanos
      g.draw).answer = .ok l)
    (path : String) (patience : Option Nat) :
    let n := f.proxy.exchanges.length
    let target := Target.url l.chosen path r.query
    let j := Proxy.dispatch g.network g.settings.proxyTimeout l.chosen path r bytes
    let waiting := ((f.step (g.nanos, .start service)).step (g.nanos, .engage n g.draw)).proxy
    let o := forward g service path r patience
    (∃ waits : Gateway, waits.proxy = waiting ∧
      o = settleExchange waits n l target j patience) ∧
    (∀ reply, reply? j patience = some reply →
      o.2.response = some (Proxy.response reply) ∧ o.2.exchange = some n ∧
      o.1.proxy.stage? n = some (.relaying l) ∧ o.1.proxy.balancer = waiting.balancer) ∧
    (reply? j patience = none →
      o.2.exchange = none ∧ o.1.proxy.stage? n = some .over ∧
      o.1.proxy.balancer = waiting.balancer.release l) := by
  intro n target j waiting o
  rcases forward_cases hr hp service path r patience with
    ⟨fault, hnot, -⟩ | ⟨bytes', fault, -, hanswer, -⟩ |
      ⟨bytes', l', hbody', hanswer, waits, hwaits, ho⟩
  · exact absurd hbody (hnot bytes)
  · cases hanswer.symm.trans hl
  · cases hanswer.symm.trans hl
    cases hbody'.symm.trans hbody
    have hwait : waits.proxy.stage? n = some (.waiting l) :=
      (congrArg (·.stage? n) hwaits).trans (Forwarding.waiting_of_engaged hl).2
    have hlease := settleExchange_lease hwait target j patience
    rw [← ho, hwaits] at hlease
    exact ⟨⟨waits, hwaits, ho⟩, hlease⟩

/-- A request leaves its lease behind as long as its response is passed on, and else none. -/
theorem forward_counts (hr : g.registry = f.registry) (hp : g.proxy = f.proxy)
    (service path : String) (r : Http.Request) (patience : Option Nat) :
    let o := forward g service path r patience
    (o.2.exchange = none → ∀ id, o.1.proxy.balancer.held id = f.proxy.balancer.held id) ∧
    ∀ k, o.2.exchange = some k → ∃ l, o.1.proxy.stage? k = some (.relaying l) ∧
      ∀ id, o.1.proxy.balancer.held id =
        if id = l.chosen.id then f.proxy.balancer.held id + 1 else f.proxy.balancer.held id := by
  intro o
  by_cases h : ∃ bytes l, r.body.read g.settings.proxy.maxBodyBytes.toNat = .whole bytes ∧
      ((f.step (g.nanos, .start service)).engagement f.proxy.exchanges.length g.nanos
        g.draw).answer = .ok l
  · obtain ⟨bytes, l, hbody, hl⟩ := h
    obtain ⟨-, hrelayed, hended⟩ := forward_of_taken hr hp hbody hl path patience
    cases hreply : reply? (Proxy.dispatch g.network g.settings.proxyTimeout l.chosen path r bytes)
        patience with
    | some reply =>
      obtain ⟨-, hexchange, hstage, hbalancer⟩ := hrelayed reply hreply
      refine ⟨fun hnone => ?_, fun k hk => ?_⟩
      · cases hexchange.symm.trans hnone
      · cases hexchange.symm.trans hk
        exact ⟨l, hstage, fun id => by rw [hbalancer, held_of_engaged hl]; rfl⟩
    | none =>
      obtain ⟨hexchange, -, hbalancer⟩ := hended hreply
      refine ⟨fun _ id => ?_, fun k hk => ?_⟩
      · rw [hbalancer, held_release_of_engaged hl]
        rfl
      · cases hexchange.symm.trans hk
  · obtain ⟨hexchange, -, hbalancer⟩ :=
      forward_of_untaken hr hp (fun bytes l hbody hl => h ⟨bytes, l, hbody, hl⟩) path patience
    refine ⟨fun _ id => by rw [hbalancer], fun k hk => ?_⟩
    cases hexchange.symm.trans hk

end

end Api

namespace Forwarding

/-! ### Counts and leases in every state -/

/-- The counts are those of the leases that are out. A request to the proxy has none if its body is
not taken or no instance is chosen for it; or else it has that of its instance while it waits, and
after that for as long as its response is passed on. -/
theorem counts_are_leases (threshold : UInt32) (strategy : Strategy) (calls : List (Nat × Call)) :
    let f := (start threshold strategy).run calls
    (∀ id, f.proxy.balancer.held id = f.out.countP (·.chosen.id = id)) ∧
    f.proxy.balancer.totalHeld = f.out.length ∧
    -- a lease that is given back takes one off its count, and nothing else does
    (∀ t c l, f.returned c = some l →
      (f.step (t, c)).proxy.balancer.held l.chosen.id + 1 = f.proxy.balancer.held l.chosen.id) ∧
    (∀ t c, f.returned c = none →
      ∀ id, f.proxy.balancer.held id ≤ (f.step (t, c)).proxy.balancer.held id) ∧
    (∀ n l, f.leaseOf n = some l ↔
      ∃ before t draw after, calls = before ++ (t, .engage n draw) :: after ∧
        (((start threshold strategy).run before).engagement n t draw).answer = .ok l ∧
        givesBack n after = false) ∧
    (f.leases = [] → (∀ n, f.leaseOf n = none) →
      f.proxy.balancer.totalHeld = 0 ∧ ∀ id, f.proxy.balancer.held id = 0) ∧
    (∀ g : Gateway, g.registry = f.registry → g.proxy = f.proxy →
      ∀ service path r patience,
        let n := f.proxy.exchanges.length
        let body := r.body.read g.settings.proxy.maxBodyBytes.toNat
        let begun := f.step (g.nanos, .start service)
        let answer := (begun.engagement n g.nanos g.draw).answer
        let waiting := begun.step (g.nanos, .engage n g.draw)
        let o := Api.forward g service path r patience
        let after : Forwarding := ⟨o.1.registry, o.1.proxy, f.leases⟩
        (∃ more, f.run more = after) ∧
        (o.2.exchange = none →
          ∀ id, after.proxy.balancer.held id = f.proxy.balancer.held id) ∧
        (∀ k, o.2.exchange = some k → ∃ l, after.leaseOf k = some l ∧
          ∀ id, after.proxy.balancer.held id =
            if id = l.chosen.id then f.proxy.balancer.held id + 1
            else f.proxy.balancer.held id) ∧
        ((∀ bytes l, body = .whole bytes → answer ≠ .ok l) →
          o.2.exchange = none ∧ after.leaseOf n = none ∧
          after.proxy.balancer = f.proxy.balancer) ∧
        ∀ bytes l, body = .whole bytes → answer = .ok l →
          let j := Proxy.dispatch g.network g.settings.proxyTimeout l.chosen path r bytes
          waiting.leaseOf n = some l ∧
          (∀ id, waiting.proxy.balancer.held id =
            if id = l.chosen.id then f.proxy.balancer.held id + 1
            else f.proxy.balancer.held id) ∧
          -- the request waits with this lease, for however long
          (∃ waits : Gateway, (∀ ms, (waits.sleep ms).proxy = waiting.proxy) ∧
            o = Api.settleExchange waits n l (Target.url l.chosen path r.query) j patience) ∧
          (∀ reply, Api.reply? j patience = some reply →
            o.2.response = some (Proxy.response reply) ∧ o.2.exchange = some n ∧
            after.leaseOf n = some l ∧ after.proxy.balancer = waiting.proxy.balancer) ∧
          (Api.reply? j patience = none →
            o.2.exchange = none ∧ after.leaseOf n = none ∧
            ∀ id, after.proxy.balancer.held id = f.proxy.balancer.held id)) := by
  intro f
  have hcounts : Counted f := counted_run (counted_start threshold strategy) calls
  refine ⟨hcounts.each, hcounts.total, ?_, ?_, ?_, ?_, ?_⟩
  · intro t c l h
    obtain ⟨hout, hb⟩ := release_of_returned h t
    have hpos := hcounts.pos hout
    rw [hb, Balancer.held_release, if_pos rfl]
    omega
  · exact fun t c h id => held_le_of_returned_none h t id
  · exact fun n l => leaseOf_run_eq_some_iff rfl calls l
  · intro hleases hnone
    have hout := out_eq_nil hleases hnone
    rw [hcounts.total, hout]
    refine ⟨rfl, fun id => ?_⟩
    rw [hcounts.each, hout]
    rfl
  · intro g hregistry hproxy service path r patience n body begun answer waiting o after
    have hrun : ∃ more, f.run more = after := by
      obtain ⟨rest, cs, hrun, -⟩ := Api.forward_run hregistry hproxy service path r patience
      exact ⟨_, (run_append f _ (changes cs)).trans hrun⟩
    obtain ⟨hnone, hsome⟩ := Api.forward_counts hregistry hproxy service path r patience
    have hlease {k : Nat} {s : Stage} (hstage : after.proxy.stage? k = some s) :
        after.leaseOf k = s.lease? := leaseOf_of_stage hstage
    refine ⟨hrun, hnone, fun k hk => ?_, fun huntaken => ?_, fun bytes l hbody hl => ?_⟩
    · obtain ⟨l, hstage, hheld⟩ := hsome k hk
      exact ⟨l, hlease hstage, hheld⟩
    · obtain ⟨hexchange, hstage, hbalancer⟩ :=
        Api.forward_of_untaken hregistry hproxy huntaken path patience
      exact ⟨hexchange, hlease hstage, hbalancer⟩
    · obtain ⟨⟨waits, hwaits, ho⟩, hrelayed, hended⟩ :=
        Api.forward_of_taken hregistry hproxy hbody hl path patience
      refine ⟨leaseOf_of_stage (waiting_of_engaged hl).2, Api.held_of_engaged hl,
        ⟨waits, fun ms => (waits.sleep_proxy ms).trans hwaits, ho⟩, fun reply hreply => ?_,
        fun hreply => ?_⟩
      · obtain ⟨hresponse, hexchange, hstage, hbalancer⟩ := hrelayed reply hreply
        exact ⟨hresponse, hexchange, hlease hstage, hbalancer⟩
      · obtain ⟨hexchange, hstage, hbalancer⟩ := hended hreply
        refine ⟨hexchange, hlease hstage, fun id => ?_⟩
        rw [hbalancer]
        exact Api.held_release_of_engaged hl id

end Forwarding

end Switchyard
