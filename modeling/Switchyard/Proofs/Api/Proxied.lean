import Switchyard.Proofs.Proxy.Relay

/-! Requests that the router takes to the proxy. Such a request makes one journey, to the
instance that is chosen for it, unless its body cannot be taken or no instance is healthy; no
other request makes one. -/
namespace Switchyard.Api

open Http (Request Response)

/-- The service and the path that a request is forwarded for, if it comes to the proxy. -/
def forwardedAs? (r : Request) : Option (String × String) :=
  match Route.ofPath? r.path with
  | none => none
  | some route =>
    if r.method = "OPTIONS" ∨ route.illegible?.isSome then none
    else
      match route with
      | .proxyRoot name => some (decoded name, "/")
      | .proxyPath name _ => some (decoded name, Target.subPath r.path)
      | _ => none

/-- The instance that a request is forwarded to, and the journey there. -/
def journey? (g : Gateway) (service path : String) (r : Request) : Option (Instance × Journey) :=
  match r.body.read g.settings.proxy.maxBodyBytes.toNat with
  | .whole body =>
    (g.proxy.balancer.choose service g.draw (g.registry.healthy service)).map fun i =>
      (i, Proxy.dispatch g.network g.settings.proxyTimeout i path r body)
  | _ => none

variable {g : Gateway} {r : Request} {service path : String} {i : Instance} {j : Journey}

/-! ### The router -/

/-- A forwarded request is on one of the two routes of the proxy, which can be read. -/
theorem forwardedAs?_spec (h : forwardedAs? r = some (service, path)) :
    r.method ≠ "OPTIONS" ∧ ∃ route, Route.ofPath? r.path = some route ∧ route.illegible? = none ∧
      ((∃ name, route = .proxyRoot name ∧ service = decoded name ∧ path = "/") ∨
        ∃ name rest, route = .proxyPath name rest ∧ service = decoded name ∧
          path = Target.subPath r.path) := by
  unfold forwardedAs? at h
  cases hroute : Route.ofPath? r.path with
  | none => simp [hroute] at h
  | some route =>
    simp only [hroute] at h
    split at h
    · cases h
    · rename_i hplain
      rw [not_or, Option.not_isSome_iff_eq_none] at hplain
      refine ⟨hplain.1, route, rfl, hplain.2, ?_⟩
      cases route with
      | proxyRoot name =>
        cases h
        exact .inl ⟨name, rfl, rfl, rfl⟩
      | proxyPath name rest =>
        cases h
        exact .inr ⟨name, rest, rfl, rfl, rfl⟩
      | _ => cases h

theorem respond_of_forwarded (h : forwardedAs? r = some (service, path))
    (patience : Option Nat) :
    (respond g r patience).2 =
      let s := (forward g service path r patience).2
      { s with response := s.response.map (overlay originHeaders) } := by
  obtain ⟨hmethod, route, hroute, hlegible, hroutes⟩ := forwardedAs?_spec h
  rcases hroutes with ⟨name, rfl, rfl, rfl⟩ | ⟨name, rest, rfl, rfl, rfl⟩
  · simp [respond, hroute, hmethod, hlegible, serveRoute, Route.methods?]
  · simp [respond, hroute, hmethod, hlegible, serveRoute, Route.methods?]

/-! ### The gateway's own answers -/

theorem status_registerService (g : Gateway) (r : Request) :
    (registerService g r).2.status < 500 := by
  unfold registerService
  split
  · exact show 400 < 500 by decide
  · dsimp only
    split
    · exact show 400 < 500 by decide
    · exact show 201 < 500 by decide

theorem status_getService (g : Gateway) (id : String) : (getService g id).status < 500 := by
  unfold getService
  split
  · exact show 200 < 500 by decide
  · exact show 404 < 500 by decide

theorem status_socketResponse (r : Request) : (socketResponse r).status < 500 := by
  unfold socketResponse upgradeRefusal?
  dsimp only
  split_ifs <;> decide

theorem status_allow (methods? : Option (List String)) (x : Response) :
    (allow methods? x).status = x.status := by
  cases methods? <;> rfl

/-- A response without a fault of the server, for which nothing was asked of an instance. -/
def Served.AtOnce (s : Served) : Prop := ∃ x : Response, s = ⟨some x, [], none⟩ ∧ x.status < 500

theorem atOnce_serveRoute {route : Route} (hroot : ∀ name, route ≠ .proxyRoot name)
    (hpath : ∀ name rest, route ≠ .proxyPath name rest) (patience : Option Nat) :
    (serveRoute g route r patience).2.AtOnce := by
  cases route with
  | proxyRoot name => exact absurd rfl (hroot name)
  | proxyPath name rest => exact absurd rfl (hpath name rest)
  | health => exact ⟨_, rfl, show 200 < 500 by decide⟩
  | metrics => exact ⟨_, rfl, show 200 < 500 by decide⟩
  | services =>
    simp only [serveRoute]
    split
    · exact ⟨_, rfl, status_registerService g r⟩
    · exact ⟨_, rfl, show 200 < 500 by decide⟩
  | service id =>
    simp only [serveRoute]
    split
    · exact ⟨_, rfl, show 200 < 500 by decide⟩
    · exact ⟨_, rfl, status_getService g (decoded id)⟩
  | socket => exact ⟨_, rfl, status_socketResponse r⟩

/-- A request that does not come to the proxy is answered by the gateway itself, and never with a
fault of the server. -/
theorem atOnce_of_not_forwarded (h : forwardedAs? r = none) (patience : Option Nat) :
    (respond g r patience).2.AtOnce := by
  unfold respond
  dsimp only
  split
  · split <;> exact ⟨_, rfl, by decide⟩
  · rename_i route hroute
    simp only [forwardedAs?, hroute] at h
    split
    · exact ⟨_, rfl, Nat.lt_of_le_of_lt (Nat.le_of_eq (status_allow _ _)) (by decide)⟩
    · rename_i hmethod
      split
      · exact ⟨_, rfl, Nat.lt_of_le_of_lt (Nat.le_of_eq (status_allow _ _)) (by decide)⟩
      · split
        · refine ⟨_, rfl, ?_⟩
          split <;> exact show 400 < 500 by decide
        · rename_i hlegible
          rw [if_neg (by simp [hmethod, hlegible])] at h
          have hroot (name : String) : route ≠ .proxyRoot name := by
            rintro rfl
            cases h
          have hpath (name rest : String) : route ≠ .proxyPath name rest := by
            rintro rfl
            cases h
          obtain ⟨x, hx, hstatus⟩ := atOnce_serveRoute (g := g) hroot hpath patience
          refine ⟨_, by rw [hx]; rfl, ?_⟩
          split <;> exact hstatus

/-! ### The proxy -/

/-- A journey goes to the chosen instance. -/
theorem journey_spec (h : journey? g service path r = some (i, j)) :
    g.proxy.balancer.choose service g.draw (g.registry.healthy service) = some i ∧
      ∃ body, r.body.read g.settings.proxy.maxBodyBytes.toNat = .whole body ∧
        j = Proxy.dispatch g.network g.settings.proxyTimeout i path r body := by
  unfold journey? at h
  split at h
  · rename_i body hbody
    obtain ⟨chosen, hchosen, heq⟩ := Option.map_eq_some_iff.1 h
    cases heq
    exact ⟨hchosen, body, hbody, rfl⟩
  · cases h

theorem requests_arrival (i : Instance) (n : Nat) (j : Journey) (patience : Option Nat) :
    (arrival i n j patience).requests = j.requests := by
  unfold arrival
  split
  · rfl
  · split <;> rfl

theorem forward_of_journey (h : journey? g service path r = some (i, j))
    (patience : Option Nat) :
    (forward g service path r patience).2 = arrival i g.proxy.exchanges.length j patience := by
  obtain ⟨hi, body, hbody, rfl⟩ := journey_spec h
  exact forward_of_chosen hbody hi patience

/-- Without a journey the gateway answers by itself. -/
theorem forward_of_no_journey (h : journey? g service path r = none) (patience : Option Nat) :
    ∃ f, (forward g service path r patience).2 = ⟨some (Proxy.refusal f), [], none⟩ := by
  unfold journey? at h
  unfold forward
  dsimp only
  split
  · exact ⟨_, rfl⟩
  · exact ⟨_, rfl⟩
  · rename_i body hbody
    rw [hbody, Option.map_eq_none_iff] at h
    have he : (g.proxy.start service g.nanos).1.exchanges[g.proxy.exchanges.length]? =
        some { service, begun := g.nanos } := List.getElem?_concat_length
    have hanswer : ((g.proxy.start service g.nanos).1.engage g.proxy.exchanges.length g.nanos
        g.draw (g.registry.healthy service)).answer = .error (.serviceNotAvailable service) :=
      (Proxy.engage_of_none he rfl h).2
    split
    · exact ⟨_, rfl⟩
    · rename_i l hl
      cases hl.symm.trans hanswer

/-- The first request that goes out is the one for the chosen instance. -/
theorem outbound_of_first {o : Outbound} {patience : Option Nat}
    (ho : (respond g r patience).2.requests.head? = some o) :
    ∃ service path i body, forwardedAs? r = some (service, path) ∧
      g.proxy.balancer.choose service g.draw (g.registry.healthy service) = some i ∧
      Client.outbound? g.network.resolver r.method (Target.url i path r.query)
        (Proxy.forwardable r.headers) body = some o := by
  cases h : forwardedAs? r with
  | none =>
    obtain ⟨x, hx, -⟩ := atOnce_of_not_forwarded (g := g) h patience
    rw [hx] at ho
    cases ho
  | some p =>
    obtain ⟨service, path⟩ := p
    rw [respond_of_forwarded h] at ho
    cases hj : journey? g service path r with
    | none =>
      obtain ⟨f, hf⟩ := forward_of_no_journey hj patience
      simp only [hf] at ho
      cases ho
    | some p =>
      obtain ⟨i, j⟩ := p
      obtain ⟨hi, body, -, rfl⟩ := journey_spec hj
      simp only [forward_of_journey hj, requests_arrival, Proxy.dispatch] at ho
      refine ⟨service, path, i, body, rfl, hi, ?_⟩
      cases hout : Client.outbound? g.network.resolver r.method (Target.url i path r.query)
          (Proxy.forwardable r.headers) body with
      | none =>
        rw [Client.send_of_no_outbound _ hout] at ho
        cases ho
      | some first =>
        rw [Client.send_of_outbound _ hout] at ho
        rcases Client.requests_cases g.settings.proxyTimeout Client.maxRedirects g.network 0 first
          with hnone | hone | ⟨_, _, _, _, _, _, -, -, -, hmore⟩
        · rw [hnone] at ho
          cases ho
        · rw [hone] at ho
          exact ho
        · rw [hmore] at ho
          exact ho

end Switchyard.Api
