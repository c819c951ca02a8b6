import Switchyard.Proofs.Api.Directory
import Switchyard.Proofs.Proxy.Intake

/-! What a caller learns of a fault. A fault on the server's side is answered by its kind alone,
whatever it says of instances, services and reasons; any other fault is told in full. So two
requests that the gateway itself answers with the same status from 500 on get the same response,
however different the gateways, the services and what went wrong on the way. -/
namespace Switchyard

open Http (Request Response)

/-! ### Kinds of faults -/

namespace Fault

variable {f f' : Fault}

/-- That two faults are of one kind; what they say of it may differ. -/
def SameKind (f f' : Fault) : Prop := f.ctorIdx = f'.ctorIdx

theorem SameKind.status_eq (h : SameKind f f') : f'.status = f.status := by
  cases f <;> cases f' <;> cases h <;> rfl

theorem SameKind.publicMessage_eq (h : SameKind f f') (hserver : 500 ≤ f.status) :
    f'.publicMessage = f.publicMessage := by
  cases f <;> cases f' <;> cases h
  all_goals first
    | rfl
    | simp [status] at hserver

/-- A fault that is not the server's is told in full. -/
theorem SameKind.eq_of_publicMessage (h : SameKind f f') (hclient : f.status < 500)
    (hmessage : f'.publicMessage = f.publicMessage) : f' = f := by
  cases f <;> cases f' <;> cases h
  case payloadTooLarge.payloadTooLarge.refl limit limit' =>
    have htext := (String.append_right_inj _).1 ((String.append_left_inj _).1 hmessage)
    have hdigits := String.ofList_injective htext
    rw [Numeric.natDigits_injective hdigits]
  all_goals first
    | simp [status] at hclient; done
    | rw [(String.append_right_inj _).1 hmessage]

end Fault

namespace Api

variable {g : Gateway} {service path : String} {r : Request} {patience : Option Nat} {x : Response}
  {f f' : Fault}

/-! ### Answers to faults -/

theorem shows_refusal (f : Fault) :
    Shows (Proxy.refusal f) f.status (.obj [("error", .str f.publicMessage)]) :=
  Shows.of_json f.status rfl rfl

/-- A response to a fault shows its status and its sentence, and nothing else. -/
theorem refusal_eq_iff : Proxy.refusal f' = Proxy.refusal f ↔
    f'.status = f.status ∧ f'.publicMessage = f.publicMessage := by
  constructor
  · intro h
    have hshows := h ▸ shows_refusal f'
    refine ⟨hshows.status.symm.trans (shows_refusal f).status, ?_⟩
    have hbody := Option.some.inj (hshows.body.symm.trans (shows_refusal f).body)
    simpa using hbody
  · rintro ⟨hstatus, hmessage⟩
    rw [Proxy.refusal, Proxy.refusal, Fault.body, Fault.body, hstatus, hmessage]

theorem refusal_eq_iff_of_sameKind (h : f.SameKind f') :
    Proxy.refusal f' = Proxy.refusal f ↔ 500 ≤ f.status ∨ f' = f := by
  rw [refusal_eq_iff]
  constructor
  · rintro ⟨-, hmessage⟩
    by_cases hserver : 500 ≤ f.status
    · exact .inl hserver
    · exact .inr (h.eq_of_publicMessage (Nat.lt_of_not_le hserver) hmessage)
  · rintro (hserver | rfl)
    · exact ⟨h.status_eq, h.publicMessage_eq hserver⟩
    · exact ⟨rfl, rfl⟩

/-! ### The gateway's own answers -/

/-- The response that a request gets from the gateway itself, none if it is that of an instance. -/
def Served.own? (s : Served) : Option Response := if s.exchange.isNone then s.response else none

theorem own?_eq_some_iff {s : Served} :
    s.own? = some x ↔ s.exchange = none ∧ s.response = some x := by
  rw [Served.own?, Option.ite_none_right_eq_some, Option.isNone_iff_eq_none]

/-- A request to the proxy that no instance answers ends in one of five faults. -/
theorem fault_of_own (h : (forward g service path r patience).2.own? = some x) :
    ∃ f, x = Proxy.refusal f ∧
      ((∃ limit, f = .payloadTooLarge limit) ∨ (∃ reason, f = .requestBody reason) ∨
        f = .serviceNotAvailable service ∨ ∃ i t, f = Proxy.fault i t) := by
  cases hbody : r.body.read g.settings.proxy.maxBodyBytes.toNat with
  | tooLong =>
    rw [forward_of_tooLong hbody] at h
    cases h
    exact ⟨_, rfl, .inl ⟨_, rfl⟩⟩
  | failed reason =>
    rw [forward_of_failed hbody] at h
    cases h
    exact ⟨_, rfl, .inr (.inl ⟨_, rfl⟩)⟩
  | whole body =>
    cases hi : g.proxy.balancer.choose service g.draw (g.registry.healthy service) with
    | none =>
      rw [forward_of_unavailable hbody hi] at h
      cases h
      exact ⟨_, rfl, .inr (.inr (.inl rfl))⟩
    | some i =>
      rw [forward_of_chosen hbody hi, arrival] at h
      split at h
      · cases h
      · split at h
        · cases h
        · rename_i t _
          cases h
          exact ⟨_, rfl, .inr (.inr (.inr ⟨i, t, rfl⟩))⟩

/-- What the gateway says for itself with a status from 500 on is the answer to every fault of one
kind. -/
theorem own_cases (h : (forward g service path r patience).2.own? = some x)
    (hserver : 500 ≤ x.status) :
    (x.status = 502 ∧ ∀ id reason, x = Proxy.refusal (.backendUnreachable id reason)) ∨
    (x.status = 503 ∧ ∀ name, x = Proxy.refusal (.serviceNotAvailable name)) ∨
    (x.status = 504 ∧ ∀ id, x = Proxy.refusal (.timeout id)) := by
  obtain ⟨f, rfl, hf⟩ := fault_of_own h
  have hsame {f' : Fault} (hkind : f'.SameKind f) (hstatus : 500 ≤ f'.status) :
      Proxy.refusal f = Proxy.refusal f' :=
    (refusal_eq_iff_of_sameKind hkind).2 (.inl hstatus)
  rcases hf with ⟨limit, rfl⟩ | ⟨reason, rfl⟩ | rfl | ⟨i, t, rfl⟩
  · exact absurd hserver (show ¬ 500 ≤ 413 by decide)
  · exact absurd hserver (show ¬ 500 ≤ 400 by decide)
  · exact .inr (.inl ⟨rfl, fun name => hsame rfl (show 500 ≤ 503 by decide)⟩)
  · cases t with
    | timedOut => exact .inr (.inr ⟨rfl, fun id => hsame rfl (show 500 ≤ 504 by decide)⟩)
    | failed => exact .inl ⟨rfl, fun id reason => hsame rfl (show 500 ≤ 502 by decide)⟩

/-- Two requests to the proxy that fail with the same status are answered alike. -/
theorem own_eq_of_status {g' : Gateway} {service' path' : String} {r' : Request}
    {patience' : Option Nat} {x' : Response}
    (h : (forward g service path r patience).2.own? = some x)
    (h' : (forward g' service' path' r' patience').2.own? = some x')
    (hserver : 500 ≤ x.status) (hstatus : x'.status = x.status) : x' = x := by
  -- of the nine cases only those with the same status are left
  rcases own_cases h hserver with ⟨hs, hx⟩ | ⟨hs, hx⟩ | ⟨hs, hx⟩ <;>
    rcases own_cases h' (hserver.trans_eq hstatus.symm) with
      ⟨hs', hx'⟩ | ⟨hs', hx'⟩ | ⟨hs', hx'⟩ <;>
    try omega
  · rw [hx "" "", hx' "" ""]
  · rw [hx "", hx' ""]
  · rw [hx "", hx' ""]

theorem own_respond (h : (respond g r patience).2.own? = some x) (hserver : 500 ≤ x.status) :
    ∃ service path y, (forward g service path r patience).2.own? = some y ∧
      x = overlay originHeaders y := by
  obtain ⟨hexchange, hx⟩ := own?_eq_some_iff.1 h
  cases hforwarded : forwardedAs? r with
  | none =>
    obtain ⟨y, hy, hstatus⟩ := atOnce_of_not_forwarded (g := g) hforwarded patience
    rw [hy] at hx
    cases hx
    exact absurd hserver (Nat.not_le.2 hstatus)
  | some target =>
    obtain ⟨service, path⟩ := target
    rw [respond_of_forwarded hforwarded] at hexchange hx
    obtain ⟨y, hy, rfl⟩ := Option.map_eq_some_iff.1 hx
    exact ⟨service, path, y, own?_eq_some_iff.2 ⟨hexchange, hy⟩, rfl⟩

/-- Every fault is answered by a JSON object that has its sentence and nothing else, whatever stands
in the sentence. On the server's side two faults of one kind are answered alike, and two requests
that the gateway itself answers with the same status get the same response, whatever gateways,
services, instances, targets and failures they met with. -/
theorem server_faults_look_alike :
    (∀ f : Fault, Shows (Proxy.refusal f) f.status (.obj [("error", .str f.publicMessage)])) ∧
    (∀ f f' : Fault, f.SameKind f' →
      (Proxy.refusal f' = Proxy.refusal f ↔ 500 ≤ f.status ∨ f' = f)) ∧
    (∀ (g : Gateway) (service path : String) (r : Request) (patience : Option Nat) (x : Response),
      (forward g service path r patience).2.own? = some x → 500 ≤ x.status →
      (x.status = 502 ∧ ∀ id reason, x = Proxy.refusal (.backendUnreachable id reason)) ∨
      (x.status = 503 ∧ ∀ name, x = Proxy.refusal (.serviceNotAvailable name)) ∨
      (x.status = 504 ∧ ∀ id, x = Proxy.refusal (.timeout id))) ∧
    (∀ (g g' : Gateway) (service service' path path' : String) (r r' : Request)
      (patience patience' : Option Nat) (x x' : Response),
      (forward g service path r patience).2.own? = some x →
      (forward g' service' path' r' patience').2.own? = some x' →
      500 ≤ x.status → x'.status = x.status → x' = x) ∧
    -- the same of everything that the gateway answers over HTTP
    ∀ (g g' : Gateway) (r r' : Request) (patience patience' : Option Nat) (x x' : Response),
      (respond g r patience).2.own? = some x → (respond g' r' patience').2.own? = some x' →
      500 ≤ x.status → x'.status = x.status → x' = x := by
  refine ⟨shows_refusal, fun f f' => refusal_eq_iff_of_sameKind,
    fun g service path r patience x => own_cases, ?_, ?_⟩
  · intro g g' service service' path path' r r' patience patience' x x' h h' hserver hstatus
    exact own_eq_of_status h h' hserver hstatus
  · intro g g' r r' patience patience' x x' h h' hserver hstatus
    obtain ⟨service, path, y, hy, rfl⟩ := own_respond h hserver
    obtain ⟨service', path', y', hy', rfl⟩ := own_respond h' (hserver.trans_eq hstatus.symm)
    have hsame : y' = y := own_eq_of_status hy hy' hserver hstatus
    rw [hsame]

/-- An instance that refuses the request and one whose address is no host fail alike. -/
theorem server_faults_look_alike_elsewhere :
    let g := soleGateway (Keyed.ofList [("/x", [.refuse])])
    let q := (Registration.new "pay \"roll\"" "::1" 9000).withId "pay\\1"
    let g' := { g with
      registry := ((Gateway.new {} 0).registry.run
        [(⟨0, 0⟩, .register q), (⟨0, 0⟩, .fold "pay\\1" true)]).1 }
    let s := (forward g "api" "/x" soleRequest none).2
    let s' := (forward g' "pay \"roll\"" "/y\n" { method := "POST", path := "/" } (some 10)).2
    s.own?.map (·.status) = some 502 ∧ s'.own? = s.own? ∧ s.requests.length = 1 ∧
      s'.requests = [] := by
  intro g q g' s s'
  obtain ⟨-, -, -, hforward, -⟩ := server_faults_look_alike
  let x := Proxy.refusal (.backendUnreachable "api-1" TransportFault.undescribed)
  let x' := Proxy.refusal (.backendUnreachable "pay\\1" TransportFault.undescribed)
  have hs : s.own? = some x := by decide +kernel
  have hs' : s'.own? = some x' := by decide +kernel
  have hsame : x' = x := hforward _ _ _ _ _ _ _ _ _ _ _ _ hs hs' (by decide) rfl
  refine ⟨by rw [hs]; rfl, by rw [hs, hs', hsame], by decide +kernel, by decide +kernel⟩

end Api

end Switchyard
