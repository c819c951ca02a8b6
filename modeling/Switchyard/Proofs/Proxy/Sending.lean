import Mathlib.Data.List.Chain
import Switchyard.Proofs.Proxy.Addressing
import Switchyard.Proofs.Proxy.Hops
import Switchyard.Proofs.Proxy.Request
import Switchyard.Proofs.Runs

/-! What an instance receives. The body that goes out is the whole of what came in, and each
header has the values that the caller gave, in their order. One instance is selected for a
request, and only once; what goes out after the first request is what redirections ask for. -/
namespace Switchyard

open Http (Headers Request Url Inflow)

/-! ### Bodies -/

/-- What comes of a body is a matter of its bytes and of its end, not of its chunks. -/
theorem Http.Inflow.collect_eq (room : Nat) (failure : Option String) (chunks : List Bytes) :
    collect room failure chunks =
      if room < chunks.flatten.length then .tooLong
      else failure.elim (.whole chunks.flatten) .failed := by
  induction chunks generalizing room with
  | nil => cases failure <;> rfl
  | cons chunk rest ih =>
    rw [collect, ih, List.flatten_cons, List.length_append]
    by_cases hchunk : room < chunk.length
    · rw [if_pos hchunk, if_pos (by omega)]
    · rw [if_neg hchunk]
      by_cases hrest : room - chunk.length < rest.flatten.length
      · rw [if_pos hrest, if_pos (by omega)]
      · rw [if_neg hrest, if_neg (by omega)]
        cases failure <;> rfl

/-- A body is taken if it comes to its end and there is room for it, however it is cut. -/
theorem Http.Inflow.collect_iff {room : Nat} {failure : Option String} {chunks : List Bytes}
    {body : Bytes} :
    collect room failure chunks = .whole body ↔
      failure = none ∧ body = chunks.flatten ∧ body.length ≤ room := by
  rw [collect_eq]
  split
  · rename_i hlong
    refine ⟨nofun, ?_⟩
    rintro ⟨-, rfl, hlength⟩
    omega
  · rename_i hroom
    cases failure with
    | some reason => simp
    | none =>
      simp only [Option.elim_none, Collected.whole.injEq, true_and]
      constructor
      · rintro rfl
        exact ⟨rfl, Nat.le_of_not_lt hroom⟩
      · exact fun h => h.1.symm

/-! ### Values -/

namespace Http.Headers

variable {hs : Headers} {names : List String} {name other : String} {value : Bytes}

/-- The values of a header, in their order. -/
def values (hs : Headers) (name : String) : List Bytes := (hs.filter (·.1 = name)).map (·.2)

theorem values_append (hs more : Headers) (name : String) :
    (hs ++ more).values name = hs.values name ++ more.values name := by
  rw [values, List.filter_append, List.map_append]
  rfl

theorem values_single : values [(other, value)] name = if other = name then [value] else [] := by
  unfold values
  split <;> simp [*]

theorem values_eq_nil : hs.values name = [] ↔ hs.contains name = false := by
  simp [values, contains]

theorem values_without :
    (hs.without names).values name = if name ∈ names then [] else hs.values name := by
  unfold values without
  rw [List.filter_filter]
  split
  · rename_i hmem
    rw [List.map_eq_nil_iff, List.filter_eq_nil_iff]
    rintro ⟨n, v⟩ -
    simp only [Bool.and_eq_true, decide_eq_true_eq, Bool.not_eq_true', not_and]
    rintro rfl
    simpa using hmem
  · rename_i hnot
    congr 1
    refine List.filter_congr fun e _ => ?_
    by_cases he : e.1 = name
    · simp [he, hnot]
    · simp [he]

theorem values_replace :
    (hs.replace other value).values name = if name = other then [value] else hs.values name := by
  rw [replace, values_append, values_without, values_single]
  by_cases h : name = other
  · subst h
    simp
  · simp [h, Ne.symm h]

end Http.Headers

/-- The values of a header that go out to an authority for a caller's headers, of which some
are dropped: the host is that of the authority, and without an accept header one is added. -/
def sentValues (drops : String → Bool) (given : Headers) (authority name : String) : List Bytes :=
  if name = "host" then [Text.bytes authority]
  else if name = "accept" ∧ given.values "accept" = [] then [Text.bytes "*/*"]
  else if drops name then []
  else given.values name

theorem sentValues_of_ne {drops : String → Bool} {given : Headers} {authority name : String}
    (hhost : name ≠ "host") (haccept : name ≠ "accept") :
    sentValues drops given authority name = if drops name then [] else given.values name := by
  have hgiven : ¬ (name = "accept" ∧ given.values "accept" = []) := fun h => haccept h.1
  rw [sentValues, if_neg hhost, if_neg hgiven]

theorem values_dress (url : Url) (hs : Headers) (name : String) :
    (Client.dress url hs).values name =
      if name = "host" then [Text.bytes url.authority]
      else if name = "accept" ∧ hs.values "accept" = [] then [Text.bytes "*/*"]
      else hs.values name := by
  have hreplaced := @Headers.values_replace hs name "host" (Text.bytes url.authority)
  have haccept := @Headers.values_replace hs "accept" "host" (Text.bytes url.authority)
  rw [if_neg (by decide)] at haccept
  unfold Client.dress
  dsimp only
  split
  · rename_i hgiven
    have hne : hs.values "accept" ≠ [] := by
      rw [← haccept, Ne, Headers.values_eq_nil, hgiven]
      nofun
    have hgo : ¬ (name = "accept" ∧ hs.values "accept" = []) := fun h => hne h.2
    rw [hreplaced, if_neg hgo]
  · rename_i hnone
    rw [Bool.not_eq_true, ← Headers.values_eq_nil, haccept] at hnone
    rw [Headers.values_append, hreplaced, Headers.values_single]
    by_cases hhost : name = "host"
    · subst hhost
      rfl
    · by_cases hname : name = "accept"
      · subst hname
        simp [hnone]
      · simp [hhost, hname, Ne.symm hname]

theorem values_sent (url : Url) (given : Headers) (name : String) :
    (Client.dress url (Proxy.forwardable given)).values name =
      sentValues Proxy.hopHeaders.contains given url.authority name := by
  have haccept : (Proxy.forwardable given).values "accept" = given.values "accept" := by
    rw [Proxy.forwardable, Headers.values_without, if_neg (by decide)]
  rw [values_dress, haccept, Proxy.forwardable, Headers.values_without, sentValues]
  simp only [List.contains_iff_mem]

/-- Every documented header is dropped just when no header begins with `proxy-` unknown. -/
theorem sentValues_eq_iff (given : Headers) (authority : String) :
    (∀ name, sentValues Proxy.hopHeaders.contains given authority name =
      sentValues isHopHeader given authority name) ↔ strays given = [] := by
  constructor
  · intro h
    rw [strays, List.filter_eq_nil_iff]
    rintro ⟨name, value⟩ hmem hstray
    have hhop : isHopHeader name = true := (isHopHeader_iff_stray name).2 (.inr hstray)
    have hne {other : String} (hother : isStray other = false) : name ≠ other := by
      rintro rfl
      cases hother.symm.trans hstray
    have hsame := h name
    have hkept : ¬ (Proxy.hopHeaders.contains name = true) := by
      have := (Bool.and_eq_true_iff.1 hstray).2
      simpa using this
    have hhost : name ≠ "host" := hne (by decide)
    have haccept : name ≠ "accept" := hne (by decide)
    rw [sentValues_of_ne hhost haccept, sentValues_of_ne hhost haccept, if_neg hkept, if_pos hhop,
      Headers.values_eq_nil] at hsame
    have hthere : Headers.contains given name = true :=
      List.any_eq_true.2 ⟨_, hmem, decide_eq_true rfl⟩
    cases hsame.symm.trans hthere
  · intro hnone name
    by_cases hstray : isStray name = true
    · have habsent : given.values name = [] := by
        rw [Headers.values_eq_nil]
        rw [strays, List.filter_eq_nil_iff] at hnone
        refine List.any_eq_false.2 fun e hmem he => hnone e hmem ?_
        rwa [of_decide_eq_true he]
      simp only [sentValues, habsent, ite_self]
    · have hsame : isHopHeader name = Proxy.hopHeaders.contains name := by
        rw [Bool.eq_iff_iff, isHopHeader_iff_stray, List.contains_iff_mem]
        exact or_iff_left hstray
      simp only [sentValues, hsame]

/-! ### Later requests -/

namespace Client

/-- A request that a response to another one asks for instead. -/
def Redirects (w : Http.Resolver) (o next : Outbound) : Prop :=
  ∃ status headers, turn w o status headers = .next next

/-- After its first request a journey sends only what redirections ask for. -/
theorem isChain_travel (timeout redirects elapsed : Nat) (n : Network) (o : Outbound) :
    (travel timeout redirects n elapsed o).requests.IsChain (Redirects n.resolver) ∧
      ∀ first, (travel timeout redirects n elapsed o).requests.head? = some first → first = o := by
  induction redirects using Nat.strongRecOn generalizing n elapsed o with
  | ind redirects ih =>
    rcases requests_cases timeout redirects n elapsed o with
      hnone | hone | ⟨fewer, network, later, status, headers, next, rfl, hresolver, hnext, hmore⟩
    · rw [hnone]
      exact ⟨.nil, nofun⟩
    · rw [hone]
      refine ⟨.singleton _, ?_⟩
      rintro first ⟨⟩
      rfl
    · obtain ⟨hchain, hhead⟩ := ih fewer (Nat.lt_succ_self _) later network next
      rw [hresolver] at hchain
      rw [hmore]
      refine ⟨hchain.cons fun first hfirst => ?_, ?_⟩
      · rw [hhead first hfirst]
        exact ⟨status, headers, hnext⟩
      · rintro first ⟨⟩
        rfl

end Client

/-! ### One selection -/

namespace Proxy

/-- Nothing that happens to an exchange after the choice moves a cursor. -/
theorem cursor_act (p : Proxy) (n now : Nat) (a : Act) (service : String) :
    (p.act n now a).balancer.cursor service = p.balancer.cursor service := by
  cases he : p.exchanges[n]? with
  | none => rw [act_of_none a he]
  | some e =>
    rw [act_eq a he]
    cases a.move? e.stage with
    | none => rfl
    | some m =>
      cases hm : m.back with
      | none => simp [perform, hm]
      | some l => simp [perform, hm, Balancer.cursor_release]

end Proxy

namespace Forwarding

variable {f : Forwarding} {n : Nat}

/-- The lease that a call takes for an exchange. -/
def engagedBy (f : Forwarding) (n : Nat) (e : Nat × Call) : List Lease :=
  match e.2 with
  | .engage k draw => if k = n then (f.engagement k e.1 draw).answer.toOption.toList else []
  | _ => []

/-- The leases that are taken for an exchange in a run. -/
def engagements (f : Forwarding) (n : Nat) (calls : List (Nat × Call)) : List Lease :=
  observed step (fun f e => f.engagedBy n e) f calls

theorem engagedBy_cases (f : Forwarding) (n : Nat) (e : Nat × Call) :
    f.engagedBy n e = [] ∨
      ∃ l, f.engagedBy n e = [l] ∧ f.proxy.stage? n = some .reading ∧
        (f.step e).proxy.stage? n = some (.waiting l) := by
  obtain ⟨now, c⟩ := e
  cases c with
  | engage k draw =>
    by_cases hk : k = n
    · subst hk
      cases hanswer : (f.engagement k now draw).answer with
      | error fault => exact .inl (by simp [engagedBy, hanswer, Except.toOption])
      | ok l =>
        obtain ⟨hreading, hwaiting⟩ := waiting_of_engaged hanswer
        exact .inr ⟨l, by simp [engagedBy, hanswer, Except.toOption], hreading, hwaiting⟩
    · exact .inl (by simp [engagedBy, hk])
  | _ => exact .inl rfl

/-- No instance is chosen for an exchange whose body has been read. -/
theorem engagements_eq_nil {s : Stage} (h : f.proxy.stage? n = some s) (hs : s ≠ .reading)
    (calls : List (Nat × Call)) : f.engagements n calls = [] := by
  induction calls generalizing f s with
  | nil => rfl
  | cons e rest ih =>
    have hnone : f.engagedBy n e = [] := by
      rcases f.engagedBy_cases n e with hnone | ⟨l, -, hreading, -⟩
      · exact hnone
      · rw [h, Option.some.injEq] at hreading
        exact absurd hreading hs
    obtain ⟨later, hlater, hne⟩ := stage?_run h hs [e]
    have hrest : (f.step e).engagements n rest = [] := ih hlater hne
    rw [engagements, observed, hnone, List.nil_append]
    exact hrest

/-- Whatever else happens, one instance at most is chosen for an exchange. -/
theorem length_engagements_le (f : Forwarding) (n : Nat) (calls : List (Nat × Call)) :
    (f.engagements n calls).length ≤ 1 := by
  induction calls generalizing f with
  | nil => exact Nat.zero_le 1
  | cons e rest ih =>
    rw [engagements, observed, List.length_append]
    rcases f.engagedBy_cases n e with hnone | ⟨l, hone, -, hwaiting⟩
    · rw [hnone, List.length_nil, Nat.zero_add]
      exact ih (f.step e)
    · have hrest : (f.step e).engagements n rest = [] :=
        engagements_eq_nil hwaiting (by simp) rest
      rw [hone, show observed step _ (f.step e) rest = [] from hrest]
      exact Nat.le_refl 1

end Forwarding

namespace Api

variable {g : Gateway} {r : Request} {service path : String} {i : Instance} {o : Outbound}

/-- What the choice for a request that has just come in makes of the cursors. -/
theorem cursor_engage (p : Proxy) (service : String) (now draw : Nat) (healthy : List Instance)
    (other : String) :
    (((p.start service now).1.engage p.exchanges.length now draw healthy).state).balancer.cursor
        other =
      (p.balancer.select service draw healthy).state.cursor other := by
  have he : (p.start service now).1.exchanges[p.exchanges.length]? =
      some { service, begun := now } := List.getElem?_concat_length
  cases hi : p.balancer.choose service draw healthy with
  | none =>
    rw [(Proxy.engage_of_none he rfl hi).1, Balancer.select_of_none _ _ _ hi]
    rfl
  | some i =>
    rw [(Proxy.engage_of_some he rfl hi).1]
    rfl

/-- A request moves the cursor of its service if an instance is found for it, and no other. -/
theorem cursor_forward (g : Gateway) (service path : String) (r : Request) (patience : Option Nat)
    (other : String) :
    (forward g service path r patience).1.proxy.balancer.cursor other =
      if other = service ∧ (journey? g service path r).isSome then
        g.proxy.balancer.cursor other + 1
      else g.proxy.balancer.cursor other := by
  have hchoice := cursor_engage g.proxy service g.nanos g.draw (g.registry.healthy service) other
  rw [Balancer.cursor_select] at hchoice
  have hturned (f : Fault) : ((g.proxy.start service g.nanos).1.turnAway
      g.proxy.exchanges.length g.nanos f).balancer.cursor other = g.proxy.balancer.cursor other :=
    Proxy.cursor_act (g.proxy.start service g.nanos).1 _ _ (.turnAway f) other
  obtain ⟨x, hx⟩ : ∃ x, forward g service path r patience = x := ⟨_, rfl⟩
  rw [hx]
  unfold forward at hx
  dsimp only at hx
  split at hx
  · rename_i hbody
    rw [← hx, journey?, hbody, if_neg fun h => absurd h.2 nofun]
    exact hturned _
  · rename_i reason hbody
    rw [← hx, journey?, hbody, if_neg fun h => absurd h.2 nofun]
    exact hturned _
  · rename_i body hbody
    rw [journey?, hbody]
    dsimp only
    rw [Option.isSome_map]
    split at hx
    · rw [← hx]
      exact hchoice
    · obtain ⟨t, a, hproxy, -⟩ := settles _ _ _ _ _ _
      rw [← hx, hproxy, Proxy.cursor_act]
      exact hchoice

/-- The first request that goes out is the one for the instance that is chosen. -/
theorem first_of_forward {patience : Option Nat}
    (ho : (forward g service path r patience).2.requests.head? = some o) :
    ∃ i body, g.proxy.balancer.choose service g.draw (g.registry.healthy service) = some i ∧
      r.body.read g.settings.proxy.maxBodyBytes.toNat = .whole body ∧
      Client.outbound? g.network.resolver r.method (Target.url i path r.query)
        (Proxy.forwardable r.headers) body = some o := by
  cases h : journey? g service path r with
  | none =>
    obtain ⟨f, hf⟩ := forward_of_no_journey h patience
    rw [hf] at ho
    cases ho
  | some p =>
    obtain ⟨i, j⟩ := p
    obtain ⟨hi, body, hbody, rfl⟩ := journey_spec h
    rw [forward_of_journey h, requests_arrival, Proxy.dispatch] at ho
    refine ⟨i, body, hi, hbody, ?_⟩
    cases hout : Client.outbound? g.network.resolver r.method (Target.url i path r.query)
        (Proxy.forwardable r.headers) body with
    | none =>
      rw [Client.send_of_no_outbound _ hout] at ho
      cases ho
    | some first =>
      rw [Client.send_of_outbound _ hout] at ho
      rw [(Client.isChain_travel _ _ _ _ _).2 o ho]

theorem isChain_forward (g : Gateway) (service path : String) (r : Request)
    (patience : Option Nat) :
    (forward g service path r patience).2.requests.IsChain
      (Client.Redirects g.network.resolver) := by
  cases h : journey? g service path r with
  | none =>
    obtain ⟨f, hf⟩ := forward_of_no_journey h patience
    rw [hf]
    exact .nil
  | some p =>
    obtain ⟨i, j⟩ := p
    obtain ⟨-, body, -, rfl⟩ := journey_spec h
    rw [forward_of_journey h, requests_arrival, Proxy.dispatch]
    cases hout : Client.outbound? g.network.resolver r.method (Target.url i path r.query)
        (Proxy.forwardable r.headers) body with
    | none =>
      rw [Client.send_of_no_outbound _ hout]
      exact .nil
    | some first =>
      rw [Client.send_of_outbound _ hout]
      exact (Client.isChain_travel _ _ _ _ _).1

/-- A request for an instance with a plain host goes to its host and port, with the caller's
headers and nobody's credentials. -/
theorem outbound_of_host {w : Http.Resolver} {host : List Char} {body : Bytes}
    (hpath : path.toList.head? = some '/')
    (hhost : Http.Host.parse? w.names i.address.toList = some host)
    (hout : Client.outbound? w r.method (Target.url i path r.query) (Proxy.forwardable r.headers)
      body = some o) :
    o.method = r.method ∧ o.body = body ∧ o.url.host = String.ofList host ∧
      o.url.port = i.port.toNat ∧
      o.headers = Client.dress o.url (Proxy.forwardable r.headers) := by
  obtain ⟨url, hplace, rfl⟩ := Option.map_eq_some_iff.1 hout
  obtain ⟨hurl, -⟩ := Url.url?_eq_some_iff.1 hplace
  obtain ⟨more, hmore⟩ := List.head?_eq_some_iff.1 hpath
  rw [← String.ofList_toList (s := path), hmore, url_eq, authority_toList] at hurl
  obtain ⟨-, huser, hpassword, hname, hport⟩ :=
    Url.parse?_of_host hhost (Nat.le_of_lt_succ i.port.toNat_lt) hurl
  have hnobody : Client.credentials url = none := by
    rw [Client.credentials, if_pos ⟨huser, by rw [hpassword]; rfl⟩]
  refine ⟨rfl, rfl, hname, hport, ?_⟩
  rw [hnobody]
  rfl

/-- The instance that is selected, and no other, gets the whole body and the caller's headers
without those that concern one hop. That they all are left out, as it is documented, holds just
when no unknown one begins with `proxy-`. -/
theorem receives_request_iff (g : Gateway) (service path : String) (r : Request)
    (patience : Option Nat) (hpath : path.toList.head? = some '/') :
    let s := forward g service path r patience
    (∀ o, s.2.requests.head? = some o → ∃ i,
      (g.proxy.balancer.select service g.draw (g.registry.healthy service)).answer = .ok ⟨i⟩ ∧
      ∀ host, Http.Host.parse? g.network.resolver.names i.address.toList = some host →
        o.url.host = String.ofList host ∧ o.url.port = i.port.toNat ∧ o.method = r.method ∧
        r.body.failure = none ∧ o.body = r.body.chunks.flatten ∧
        (∀ name, o.headers.values name =
          sentValues Proxy.hopHeaders.contains r.headers o.url.authority name) ∧
        ((∀ name, o.headers.values name =
          sentValues isHopHeader r.headers o.url.authority name) ↔ strays r.headers = [])) ∧
    s.2.requests.IsChain (Client.Redirects g.network.resolver) ∧
    -- one selection moves one cursor by one; none is made for a body that is not taken
    (∀ other, s.1.proxy.balancer.cursor other =
      if other = service ∧ (journey? g service path r).isSome then
        g.proxy.balancer.cursor other + 1
      else g.proxy.balancer.cursor other) ∧
    ∀ leases n calls,
      (Forwarding.engagements ⟨g.registry, g.proxy, leases⟩ n calls).length ≤ 1 := by
  intro s
  refine ⟨fun o ho => ?_, isChain_forward g service path r patience,
    cursor_forward g service path r patience, fun leases n calls =>
      Forwarding.length_engagements_le _ n calls⟩
  obtain ⟨i, body, hi, hbody, hout⟩ := first_of_forward ho
  have hselected : (g.proxy.balancer.select service g.draw
      (g.registry.healthy service)).answer = .ok ⟨i⟩ := by
    rw [Balancer.select_answer, hi]
  refine ⟨i, hselected, fun host hhost => ?_⟩
  obtain ⟨hmethod, hsame, hname, hport, hheaders⟩ := outbound_of_host hpath hhost hout
  obtain ⟨hfailure, hwhole, -⟩ := Http.Inflow.collect_iff.1 hbody
  have hvalues (name : String) : o.headers.values name =
      sentValues Proxy.hopHeaders.contains r.headers o.url.authority name := by
    rw [hheaders]
    exact values_sent o.url r.headers name
  refine ⟨hname, hport, hmethod, hfailure, hsame.trans hwhole, hvalues, ?_⟩
  rw [← sentValues_eq_iff r.headers o.url.authority]
  simp only [hvalues]

theorem receives_request_repeated :
    let r := { soleRequest with
      headers := [("x-tag", ascii "b"), ("connection", ascii "close"), ("x-tag", [255])]
      body := { chunks := [ascii "pay", [], ascii "load"] } }
    let s := forward (soleGateway ∅) "api" "/x" r none
    ∃ o, s.2.requests.head? = some o ∧ o.url.authority = "10.0.0.1:9000" ∧ o.method = "GET" ∧
      o.body = ascii "payload" ∧ o.headers.values "x-tag" = [ascii "b", [255]] ∧
      (∀ name, isHopHeader name = true → name ≠ "host" → o.headers.values name = []) ∧
      s.1.proxy.balancer.cursor "api" = 1 := by
  intro r s
  obtain ⟨o, ho, hauthority⟩ : ∃ o, s.2.requests.head? = some o ∧
      o.url.authority = "10.0.0.1:9000" := by
    refine ⟨⟨"GET", { host := "10.0.0.1", port := 9000, path := "/x" }, [("x-tag", ascii "b"),
      ("x-tag", [255]), ("host", ascii "10.0.0.1:9000"), ("accept", ascii "*/*")],
      ascii "payload"⟩, ?_, ?_⟩ <;> decide +kernel
  obtain ⟨hfirst, -, hcursor, -⟩ :=
    receives_request_iff (soleGateway ∅) "api" "/x" r none (by decide)
  obtain ⟨i, hi, hreceives⟩ := hfirst o ho
  have hsole : i = soleInstance := by
    rw [Balancer.select_answer, sole_choice] at hi
    cases hi
    rfl
  subst hsole
  have hhost : Http.Host.parse? (soleGateway ∅).network.resolver.names
      soleInstance.address.toList = some "10.0.0.1".toList := by
    decide +kernel
  obtain ⟨-, -, hmethod, -, hbody, hvalues, hiff⟩ := hreceives _ hhost
  refine ⟨o, ho, hauthority, hmethod, hbody.trans (by decide +kernel), ?_, ?_, ?_⟩
  · rw [hvalues, hauthority]
    decide +kernel
  · intro name hhop hname
    rw [hiff.2 (by decide +kernel), sentValues, if_neg hname, if_pos hhop, if_neg]
    rintro ⟨rfl, -⟩
    exact absurd hhop (by decide)
  · rw [hcursor, if_pos (by decide +kernel)]
    decide +kernel

/-- A header about the connection of a caller goes out, which would be left out as documented. -/
theorem receives_connection :
    let r := { soleRequest with headers := [("proxy-connection", ascii "keep-alive")] }
    (forward (soleGateway ∅) "api" "/x" r none).2.requests.map
        (·.headers.values "proxy-connection") = [[ascii "keep-alive"]] ∧
      sentValues isHopHeader r.headers "10.0.0.1:9000" "proxy-connection" = [] := by
  decide +kernel

end Api

end Switchyard
