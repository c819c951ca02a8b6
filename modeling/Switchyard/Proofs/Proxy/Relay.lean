import Switchyard.Api.Respond
import Switchyard.Proofs.Proxy.Laws

/-! What the caller gets of an instance's answer. The answer is passed on as it is, except that
the client follows redirections by itself, and that of the headers of one hop whose names begin
with `proxy-` only two are known. -/
namespace Switchyard

open Http (Headers Request Response Ending Resolver)

/-! ### Journeys -/

/-- Answering requests does not change how texts are read. -/
@[simp] theorem Network.resolver_serve (n : Network) (o : Outbound) :
    (n.serve o).1.resolver = n.resolver := by
  unfold serve
  dsimp only
  split
  · rfl
  · split <;> rfl

namespace Client

variable {n : Network} {o next : Outbound} {timeout redirects elapsed delay status : Nat}
  {headers : Headers} {body : Bytes} {ending : Ending}

theorem send_of_outbound {method target : String} (timeout : Nat)
    (h : outbound? n.resolver method target headers body = some o) :
    send n timeout method target headers body = travel timeout maxRedirects n 0 o := by
  rw [send, h]

theorem send_of_no_outbound {method target : String} (timeout : Nat)
    (h : outbound? n.resolver method target headers body = none) :
    send n timeout method target headers body = ⟨n, [], 0, .error .failed⟩ := by
  rw [send, h]

/-- An answer in time is the last one, or the journey fails, or it goes on from there. -/
theorem travel_of_reply
    (hserve : (n.serve o).2 = some (.reply delay status headers body ending))
    (hdelay : elapsed + delay < timeout) :
    travel timeout redirects n elapsed o =
      match turn n.resolver o status headers, redirects with
      | .final, _ => ⟨(n.serve o).1, [o], elapsed + delay, .ok ⟨status, headers, body, ending⟩⟩
      | .next next, redirects + 1 =>
        let j := travel timeout redirects (n.serve o).1 (elapsed + delay) next
        { j with requests := o :: j.requests }
      | _, _ => ⟨(n.serve o).1, [o], elapsed + delay, .error .failed⟩ := by
  have hpair : n.serve o = ((n.serve o).1, some (.reply delay status headers body ending)) :=
    Prod.ext rfl hserve
  rw [travel, if_neg (by omega), hpair]
  simp only [if_neg (Nat.not_le.2 hdelay), Network.resolver_serve]
  cases turn n.resolver o status headers <;> cases redirects <;> rfl

/-- What a journey sends: nothing, its first request, or that and what a redirection asks for. -/
theorem requests_cases (timeout redirects : Nat) (n : Network) (elapsed : Nat) (o : Outbound) :
    (travel timeout redirects n elapsed o).requests = [] ∨
      (travel timeout redirects n elapsed o).requests = [o] ∨
      ∃ fewer network later status headers next, redirects = fewer + 1 ∧
        network.resolver = n.resolver ∧ turn n.resolver o status headers = .next next ∧
        (travel timeout redirects n elapsed o).requests =
          o :: (travel timeout fewer network later next).requests := by
  obtain ⟨j, hj⟩ : ∃ j, travel timeout redirects n elapsed o = j := ⟨_, rfl⟩
  have hresolver := n.resolver_serve o
  rw [hj]
  unfold travel at hj
  split at hj
  · exact .inl (by rw [← hj])
  · split at hj
    · exact .inl (by rw [← hj])
    · split at hj <;> exact .inr (.inl (by rw [← hj]))
    · exact .inr (.inl (by rw [← hj]))
    · rename_i served _ _ _ _ _ hserve
      rw [hserve] at hresolver
      split at hj
      · exact .inr (.inl (by rw [← hj]))
      · split at hj
        · exact .inr (.inl (by rw [← hj]))
        · exact .inr (.inl (by rw [← hj]))
        · rename_i next hnext
          rw [show served.resolver = n.resolver from hresolver] at hnext
          split at hj
          · exact .inr (.inl (by rw [← hj]))
          · exact .inr (.inr ⟨_, _, _, _, _, next, rfl, hresolver, hnext, by rw [← hj]⟩)

/-- Without a request there is no response. -/
theorem error_or_requests (timeout redirects : Nat) (n : Network) (elapsed : Nat) (o : Outbound) :
    (∃ t, (travel timeout redirects n elapsed o).result = .error t) ∨
      (travel timeout redirects n elapsed o).requests ≠ [] := by
  unfold travel
  split
  · exact .inl ⟨_, rfl⟩
  · split
    · exact .inl ⟨_, rfl⟩
    · split <;> exact .inl ⟨_, rfl⟩
    · exact .inl ⟨_, rfl⟩
    · split
      · exact .inl ⟨_, rfl⟩
      · split
        · exact .inr (List.cons_ne_nil _ _)
        · exact .inl ⟨_, rfl⟩
        · split
          · exact .inl ⟨_, rfl⟩
          · exact .inr (List.cons_ne_nil _ _)

/-- Only a redirection may be more than the last response. -/
theorem isRedirect_of_turn {w : Resolver} (h : turn w o status headers ≠ .final) :
    isRedirect status = true := by
  unfold turn at h
  split at h
  · assumption
  · exact absurd rfl h

end Client

/-! ### Headers -/

/-- Whether the name of a header begins with `proxy-`. -/
def isProxyHeader (name : String) : Bool := "proxy-".toList.isPrefixOf name.toList

/-- Whether a header concerns one hop only, or is the host, as it is documented. -/
def isHopHeader (name : String) : Bool :=
  isProxyHeader name ||
    ["connection", "keep-alive", "te", "trailer", "transfer-encoding", "upgrade", "host"].contains
      name

/-- An answer as it is documented to be passed on. -/
def verbatim (status : Nat) (headers : Headers) (body : Bytes) (ending : Ending) : Response :=
  { status, headers := headers.filter fun h => !isHopHeader h.1, body, ending }

theorem isHopHeader_iff (name : String) :
    isHopHeader name = true ↔ name ∈ Proxy.hopHeaders ∨ isProxyHeader name = true := by
  constructor
  · intro h
    rcases Bool.or_eq_true_iff.1 h with hproxy | hlist
    · exact .inr hproxy
    · simp only [List.contains_iff_mem, List.mem_cons, List.not_mem_nil, or_false] at hlist
      simp only [Proxy.hopHeaders, List.mem_cons, List.not_mem_nil, or_false]
      tauto
  · rintro (h | h)
    · simp only [Proxy.hopHeaders, List.mem_cons, List.not_mem_nil, or_false] at h
      rcases h with rfl | rfl | rfl | rfl | rfl | rfl | rfl | rfl | rfl <;> decide
    · exact Bool.or_eq_true_iff.2 (.inl h)

namespace Proxy

/-- Headers are passed on as documented just when no header that begins with `proxy-` is there,
except the two that are known. -/
theorem forwardable_eq_iff (headers : Headers) :
    (forwardable headers = headers.filter fun h => !isHopHeader h.1) ↔
      ∀ h ∈ headers, isProxyHeader h.1 = true → h.1 ∈ hopHeaders := by
  have hforwardable : forwardable headers = headers.filter fun h => !hopHeaders.contains h.1 := rfl
  constructor
  · intro heq h hmem hproxy
    by_contra hnot
    have hin : h ∈ forwardable headers := by
      rw [hforwardable]
      exact List.mem_filter.2 ⟨hmem, by simpa using hnot⟩
    rw [heq] at hin
    have hkept := (List.mem_filter.1 hin).2
    rw [(isHopHeader_iff h.1).2 (.inr hproxy)] at hkept
    cases hkept
  · intro hknown
    rw [hforwardable]
    refine List.filter_congr fun h hmem => ?_
    have hiff : isHopHeader h.1 = true ↔ hopHeaders.contains h.1 = true := by
      rw [isHopHeader_iff, List.contains_iff_mem]
      exact or_iff_left_of_imp (hknown h hmem)
    rw [Bool.eq_iff_iff.2 hiff]

end Proxy

namespace Api

/-! ### One instance -/

/-- A gateway with one instance, which is healthy and answers by these routes. -/
def soleGateway (routes : Routes) : Gateway :=
  let g := Gateway.new {} 0
  let q := (Registration.new "api" "10.0.0.1" 9000).withId "api-1"
  { g with
    registry := (g.registry.run [(⟨0, 0⟩, .register q), (⟨0, 0⟩, .fold "api-1" true)]).1
    network := g.network.install "10.0.0.1:9000" routes }

def soleInstance : Instance := ⟨"api-1", "api", "10.0.0.1", 9000, .healthy, ⟨0, 0⟩, ∅, 0, 0⟩

/-- The request that asks for `/x`. -/
def soleRequest : Request := { path := "/api/proxy/api/x" }

/-- What goes out for it. -/
def soleOutbound : Outbound where
  method := "GET"
  url := { host := "10.0.0.1", port := 9000, path := "/x" }
  headers := [("host", ascii "10.0.0.1:9000"), ("accept", ascii "*/*")]
  body := []

theorem sole_body (routes : Routes) :
    soleRequest.body.read (soleGateway routes).settings.proxy.maxBodyBytes.toNat = .whole [] := rfl

theorem sole_choice (routes : Routes) :
    (soleGateway routes).proxy.balancer.choose "api" (soleGateway routes).draw
      ((soleGateway routes).registry.healthy "api") = some soleInstance := rfl

theorem sole_outbound :
    Client.outbound? .plain soleRequest.method (Target.url soleInstance "/x" soleRequest.query)
      (Proxy.forwardable soleRequest.headers) [] = some soleOutbound := by decide

/-! ### Forwarded requests -/

/-- What the caller gets of a journey to an instance. -/
def arrival (i : Instance) (n : Nat) (j : Journey) (patience : Option Nat) : Served :=
  if patience.any (· < j.elapsed) then ⟨none, j.requests, none⟩
  else
    match j.result with
    | .ok reply => ⟨some (Proxy.response reply), j.requests, some n⟩
    | .error t => ⟨some (Proxy.refusal (Proxy.fault i t)), j.requests, none⟩

theorem settleExchange_served (g : Gateway) (n : Nat) (l : Lease) (target : String) (j : Journey)
    (patience : Option Nat) :
    (settleExchange g n l target j patience).2 = arrival l.chosen n j patience := by
  unfold settleExchange arrival
  split
  · rfl
  · cases j.result <;> rfl

variable {g : Gateway} {service path : String} {r : Request} {body : Bytes} {i : Instance}
  {o : Outbound}

/-- A request whose body is whole goes to the chosen instance. -/
theorem forward_of_chosen (hbody : r.body.read g.settings.proxy.maxBodyBytes.toNat = .whole body)
    (hi : g.proxy.balancer.choose service g.draw (g.registry.healthy service) = some i)
    (patience : Option Nat) :
    (forward g service path r patience).2 =
      arrival i g.proxy.exchanges.length
        (Proxy.dispatch g.network g.settings.proxyTimeout i path r body) patience := by
  have he : (g.proxy.start service g.nanos).1.exchanges[g.proxy.exchanges.length]? =
      some { service, begun := g.nanos } := List.getElem?_concat_length
  have hanswer : ((g.proxy.start service g.nanos).1.engage g.proxy.exchanges.length g.nanos g.draw
      (g.registry.healthy service)).answer = .ok ⟨i⟩ := (Proxy.engage_of_some he rfl hi).2
  obtain ⟨x, hx⟩ : ∃ x, forward g service path r patience = x := ⟨_, rfl⟩
  rw [hx]
  unfold forward at hx
  dsimp only at hx
  rw [hbody] at hx
  dsimp only at hx
  split at hx
  · rename_i f hf
    cases hf.symm.trans hanswer
  · rename_i l hl
    cases hl.symm.trans hanswer
    rw [← hx]
    exact settleExchange_served _ _ _ _ _ _

theorem forward_served (hbody : r.body.read g.settings.proxy.maxBodyBytes.toNat = .whole body)
    (hi : g.proxy.balancer.choose service g.draw (g.registry.healthy service) = some i)
    (ho : Client.outbound? g.network.resolver r.method (Target.url i path r.query)
      (Proxy.forwardable r.headers) body = some o) (patience : Option Nat) :
    (forward g service path r patience).2 =
      arrival i g.proxy.exchanges.length
        (Client.travel g.settings.proxyTimeout Client.maxRedirects g.network 0 o) patience := by
  rw [forward_of_chosen hbody hi, ← Client.send_of_outbound g.settings.proxyTimeout ho]
  rfl

variable {delay status : Nat} {headers : Headers} {bytes : Bytes} {ending : Ending}

theorem fault_not_redirect (i : Instance) (t : TransportFault) :
    Client.isRedirect (Proxy.refusal (Proxy.fault i t)).status = false := by
  cases t <;> rfl

/-- A response with the status of a redirection is none of the gateway's own, so a request
more has been made for it. -/
theorem requests_ne_of_isRedirect {j : Journey} {n : Nat} {patience : Option Nat} {x : Response}
    (hj : (∃ t, j.result = .error t) ∨ j.requests ≠ [])
    (hx : Client.isRedirect x.status = true)
    (h : (arrival i n { j with requests := o :: j.requests } patience).response = some x) :
    (arrival i n { j with requests := o :: j.requests } patience).requests ≠ [o] := by
  unfold arrival at h ⊢
  dsimp only at h ⊢
  split
  · rename_i hleft
    rw [if_pos hleft] at h
    cases h
  · rename_i hstays
    rw [if_neg hstays] at h
    rcases hj with ⟨t, ht⟩ | hne
    · rw [ht] at h
      cases h
      exact absurd ((fault_not_redirect i t).symm.trans hx) nofun
    · cases j.result <;> exact fun heq => hne (List.cons.inj heq).2

/-- The answer of an instance is passed on as documented just when the client takes it for the last
one and it has no unknown header that begins with `proxy-`. -/
theorem relays_verbatim_iff
    (hbody : r.body.read g.settings.proxy.maxBodyBytes.toNat = .whole body)
    (hi : g.proxy.balancer.choose service g.draw (g.registry.healthy service) = some i)
    (ho : Client.outbound? g.network.resolver r.method (Target.url i path r.query)
      (Proxy.forwardable r.headers) body = some o)
    (hserve : (g.network.serve o).2 = some (.reply delay status headers bytes ending))
    (hdelay : delay < g.settings.proxyTimeout) (patience : Option Nat)
    (hstays : patience.any (· < delay) = false) :
    let s := (forward g service path r patience).2
    let turn := Client.turn g.network.resolver o status headers
    (s.requests = [o] ∧ s.response = some (verbatim status headers bytes ending) ↔
      turn = .final ∧ ∀ h ∈ headers, isProxyHeader h.1 = true → h.1 ∈ Proxy.hopHeaders) ∧
    -- an answer that leads off http is lost: the caller gets the refusal of a failed attempt
    (turn = .astray → s = ⟨some (Proxy.refusal (Proxy.fault i .failed)), [o], none⟩) ∧
    -- so is one that is followed: what the caller gets is found by going on from there
    ∀ next, turn = .next next →
      let j := Client.travel g.settings.proxyTimeout (Client.maxRedirects - 1)
        (g.network.serve o).1 delay next
      s = arrival i g.proxy.exchanges.length { j with requests := o :: j.requests } patience := by
  intro s turn
  have hs : s = _ := forward_served hbody hi ho patience
  rw [Client.maxRedirects, Client.travel_of_reply hserve (by omega), Nat.zero_add] at hs
  cases hturn : Client.turn g.network.resolver o status headers with
  | final =>
    rw [hturn] at hs
    have hrelayed : s = ⟨some (Proxy.response ⟨status, headers, bytes, ending⟩), [o],
        some g.proxy.exchanges.length⟩ := by
      rw [hs, arrival, if_neg (by rw [hstays]; nofun)]
    refine ⟨?_, fun h => absurd (hturn.symm.trans h) nofun,
      fun next h => absurd (hturn.symm.trans h) nofun⟩
    rw [hrelayed]
    simp [turn, hturn, Proxy.response, verbatim, Proxy.forwardable_eq_iff]
  | astray =>
    rw [hturn] at hs
    have hrefused : s = ⟨some (Proxy.refusal (Proxy.fault i .failed)), [o], none⟩ := by
      rw [hs, arrival, if_neg (by rw [hstays]; nofun)]
    have hmore : turn ≠ .final := fun h => absurd (hturn.symm.trans h) nofun
    refine ⟨⟨?_, fun h => absurd h.1 hmore⟩, fun _ => hrefused,
      fun next h => absurd (hturn.symm.trans h) nofun⟩
    rintro ⟨-, hresponse⟩
    rw [hrefused] at hresponse
    -- the refusal has not the status of a redirection
    have hstatus := congrArg Response.status (Option.some.inj hresponse)
    have hredirect : Client.isRedirect status = true := Client.isRedirect_of_turn hmore
    exact absurd ((hstatus ▸ fault_not_redirect i .failed).symm.trans hredirect) nofun
  | next next =>
    rw [hturn] at hs
    have hmore : turn ≠ .final := fun h => absurd (hturn.symm.trans h) nofun
    refine ⟨⟨?_, fun h => absurd h.1 hmore⟩, fun h => absurd (hturn.symm.trans h) nofun, ?_⟩
    · rintro ⟨hrequests, hresponse⟩
      rw [hs] at hrequests hresponse
      exact absurd hrequests (requests_ne_of_isRedirect (Client.error_or_requests _ _ _ _ _)
        (Client.isRedirect_of_turn hmore) hresponse)
    · intro next' h
      cases hturn.symm.trans h
      exact hs

theorem relays_refusal :
    let headers := [("x-reason", ascii "moved"), ("keep-alive", ascii "5")]
    let routes := Keyed.ofList [("/x", [.reply 5 404 headers (ascii "gone") .complete])]
    let s := (forward (soleGateway routes) "api" "/x" soleRequest none).2
    ((soleGateway routes).network.serve soleOutbound).2 =
        some (.reply 5 404 headers (ascii "gone") .complete) ∧
      s.requests = [soleOutbound] ∧
      s.response = some ⟨404, [("x-reason", ascii "moved")], ascii "gone", .complete⟩ := by
  intro headers routes s
  have hserve : ((soleGateway routes).network.serve soleOutbound).2 =
      some (.reply 5 404 headers (ascii "gone") .complete) := by decide
  have h := relays_verbatim_iff (sole_body routes) (sole_choice routes) sole_outbound hserve
    (by decide) none rfl
  exact ⟨hserve, h.1.2 (by decide)⟩

/-- The caller gets the answer of another path for the redirection the instance gave. -/
theorem relays_other_answer :
    let headers := [("location", ascii "/y")]
    let routes := Keyed.ofList [("/x", [.reply 0 302 headers (ascii "moved") .complete]),
      ("/y", [.reply 0 200 [] (ascii "other") .complete])]
    let s := (forward (soleGateway routes) "api" "/x" soleRequest none).2
    s.requests.map (·.url.path) = ["/x", "/y"] ∧
      s.response = some (verbatim 200 [] (ascii "other") .complete) ∧
      s.response ≠ some (verbatim 302 headers (ascii "moved") .complete) := by
  intro headers routes s
  rw [show s = _ from forward_served (sole_body routes) (sole_choice routes) sole_outbound none]
  decide

end Api

end Switchyard
