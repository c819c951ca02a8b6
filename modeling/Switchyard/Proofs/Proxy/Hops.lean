import Switchyard.Proofs.Api.Proxied

/-! What crosses the gateway of the headers that concern one hop. Of those that begin with
`proxy-` two are known and the others are strays: they are passed on, whichever way they come
and wherever a redirection leads. Nothing else of one hop is passed on, and the host that goes
out is that of the URL. -/
namespace Switchyard

open Http (Headers Request Response Url Ending)

/-- Whether a header begins with `proxy-` and yet is not known to concern one hop. -/
def isStray (name : String) : Bool := isProxyHeader name && !Proxy.hopHeaders.contains name

def strays (hs : Headers) : Headers := hs.filter fun h => isStray h.1

/-- The headers that concern one hop, and the host. -/
def hops (hs : Headers) : Headers := hs.filter fun h => isHopHeader h.1

theorem isHopHeader_iff_stray (name : String) :
    isHopHeader name = true ↔ name ∈ Proxy.hopHeaders ∨ isStray name = true := by
  rw [isHopHeader_iff, isStray, Bool.and_eq_true, Bool.not_eq_true', ← Bool.not_eq_true,
    List.contains_iff_mem]
  tauto

/-! ### Headers -/

theorem filter_without {p : String → Bool} {names : List String} (h : ∀ n ∈ names, p n = false)
    (hs : Headers) : ((hs.without names).filter fun e => p e.1) = hs.filter fun e => p e.1 := by
  rw [Headers.without, List.filter_filter]
  refine List.filter_congr fun e _ => ?_
  cases hp : p e.1 with
  | false => rfl
  | true =>
    have hnot : e.1 ∉ names := fun hmem => by rw [h e.1 hmem] at hp; cases hp
    simp [hnot]

theorem strays_forwardable (hs : Headers) : strays (Proxy.forwardable hs) = strays hs := by
  apply filter_without
  intro n hn
  simp [isStray, hn]

/-- Of what concerns one hop only the strays are passed on. -/
theorem hops_forwardable (hs : Headers) : hops (Proxy.forwardable hs) = strays hs := by
  rw [← strays_forwardable]
  refine List.filter_congr fun h hmem => ?_
  have hout : h.1 ∉ Proxy.hopHeaders := by
    have := (List.mem_filter.1 hmem).2
    simpa using this
  rw [Bool.eq_iff_iff, isHopHeader_iff_stray]
  simp [hout]

/-! ### Requests that go out -/

/-- Headers with the strays of those that were given, and of the others of one hop at most the
host. -/
structure Carries (given hs : Headers) : Prop where
  strays : strays hs = strays given
  others : ∀ h ∈ hs, isHopHeader h.1 = true → isStray h.1 = true ∨ h.1 = "host"

namespace Carries

variable {given hs : Headers} {names : List String} {name : String} {value : Bytes}

theorem forwardable (given : Headers) : Carries given (Proxy.forwardable given) where
  strays := strays_forwardable given
  others h hmem hhop := by
    have hin : h ∈ hops (Proxy.forwardable given) := List.mem_filter.2 ⟨hmem, hhop⟩
    rw [hops_forwardable] at hin
    exact .inl (List.mem_filter.1 hin).2

theorem without (h : Carries given hs) (hnames : ∀ n ∈ names, isStray n = false) :
    Carries given (hs.without names) where
  strays := (filter_without hnames hs).trans h.strays
  others e he := h.others e (List.mem_filter.1 he).1

theorem append (h : Carries given hs) (hstray : isStray name = false)
    (hother : isHopHeader name = true → name = "host") :
    Carries given (hs ++ [(name, value)]) where
  strays := by
    rw [← h.strays, Switchyard.strays, Switchyard.strays, List.filter_append]
    simp [hstray]
  others e he hhop := by
    rcases List.mem_append.1 he with he | he
    · exact h.others e he hhop
    · rw [List.mem_singleton.1 he] at hhop ⊢
      exact .inr (hother hhop)

theorem replace (h : Carries given hs) (hstray : isStray name = false)
    (hother : isHopHeader name = true → name = "host") :
    Carries given (hs.replace name value) :=
  (h.without (by simpa using hstray)).append hstray hother

theorem dress (h : Carries given hs) (url : Url) : Carries given (Client.dress url hs) := by
  have hhost : Carries given (hs.replace "host" (Text.bytes url.authority)) :=
    h.replace (by decide) fun _ => rfl
  unfold Client.dress
  dsimp only
  split
  · exact hhost
  · exact hhost.append (by decide) (by decide)

/-- But for the host, what concerns one hop are the strays. -/
theorem hops_without_host (h : Carries given hs) :
    hops (hs.without ["host"]) = Switchyard.strays given := by
  have hhost : ∀ n ∈ ["host"], isStray n = false := by decide
  rw [← h.strays, ← (h.without hhost).strays.trans h.strays.symm]
  refine List.filter_congr fun e he => ?_
  obtain ⟨hmem, hne⟩ := List.mem_filter.1 he
  rw [Bool.eq_iff_iff, isHopHeader_iff_stray]
  refine ⟨fun hhop => ?_, .inr⟩
  rcases h.others e hmem ((isHopHeader_iff_stray _).2 hhop) with hstray | heq
  · exact hstray
  · simp [heq] at hne

end Carries

/-- A dressed request has one host, that of its URL. -/
theorem host_dress (url : Url) (hs : Headers) :
    ((Client.dress url hs).filter fun h => h.1 = "host") =
      [("host", Text.bytes url.authority)] := by
  have hreplaced : ((hs.replace "host" (Text.bytes url.authority)).filter fun h => h.1 = "host") =
      [("host", Text.bytes url.authority)] := by
    rw [Headers.replace, Headers.without, List.filter_append, List.filter_filter]
    simp
  unfold Client.dress
  dsimp only
  split
  · exact hreplaced
  · rw [List.filter_append, hreplaced]
    rfl

/-- A request that goes out for a caller who gave these headers. -/
structure SentFor (given : Headers) (o : Outbound) : Prop where
  carries : Carries given o.headers
  host : (o.headers.filter fun h => h.1 = "host") = [("host", Text.bytes o.url.authority)]

namespace Client

variable {given : Headers} {o next : Outbound} {w : Http.Resolver}

theorem sentFor_outbound {method target : String} {body : Bytes}
    (h : outbound? w method target (Proxy.forwardable given) body = some o) :
    SentFor given o := by
  obtain ⟨url, -, rfl⟩ := Option.map_eq_some_iff.1 h
  refine ⟨?_, host_dress url _⟩
  apply Carries.dress
  split
  · split
    · exact Carries.forwardable given
    · exact (Carries.forwardable given).append (by decide) (by decide)
  · exact Carries.forwardable given

theorem sentFor_redirected (h : SentFor given o) (status : Nat) (url : Http.Url) :
    SentFor given (redirected o status url) := by
  refine ⟨Carries.dress ?_ url, host_dress url _⟩
  -- what the content, the server and the referer concern is no stray
  have hcontent (drops : Bool) :
      Carries given (if drops then o.headers.without contentHeaders else o.headers) := by
    split
    · exact h.carries.without (by decide)
    · exact h.carries
  have hbound {hs : Headers} (same : Prop) [Decidable same] (hhs : Carries given hs) :
      Carries given (if same then hs else hs.without boundHeaders) := by
    split
    · exact hhs
    · exact hhs.without (by decide)
  split
  · exact hbound _ (hcontent _)
  · exact (hbound _ (hcontent _)).replace (by decide) (by decide)

/-- A response leads to another request only as a redirection to a URL. -/
theorem eq_redirected_of_turn {status : Nat} {headers : Headers}
    (hnext : turn w o status headers = .next next) : ∃ url, next = redirected o status url := by
  unfold turn at hnext
  split at hnext
  · split at hnext
    · cases hnext
    · split at hnext
      · cases hnext
      · cases hnext
      · cases hnext
        exact ⟨_, rfl⟩
  · cases hnext

/-- Every request of a journey is for the caller of the first one. -/
theorem sentFor_travel (timeout redirects elapsed : Nat) (n : Network) (h : SentFor given o) :
    ∀ sent ∈ (travel timeout redirects n elapsed o).requests, SentFor given sent := by
  intro sent hsent
  induction redirects using Nat.strongRecOn generalizing n elapsed o with
  | ind redirects ih =>
    rcases requests_cases timeout redirects n elapsed o with
      hnone | hone | ⟨fewer, network, later, status, _, next, rfl, -, hnext, hmore⟩
    · rw [hnone] at hsent
      cases hsent
    · rw [hone] at hsent
      rwa [List.mem_singleton.1 hsent]
    · rw [hmore] at hsent
      rcases List.mem_cons.1 hsent with rfl | hlater
      · exact h
      · obtain ⟨url, rfl⟩ := eq_redirected_of_turn hnext
        exact ih fewer (Nat.lt_succ_self _) _ _ (sentFor_redirected h status url) hlater

theorem sentFor_send (n : Network) (timeout : Nat) (method target : String) (body : Bytes) :
    ∀ sent ∈ (send n timeout method target (Proxy.forwardable given) body).requests,
      SentFor given sent := by
  cases ho : outbound? n.resolver method target (Proxy.forwardable given) body with
  | none =>
    rw [send_of_no_outbound timeout ho]
    nofun
  | some o =>
    rw [send_of_outbound timeout ho]
    exact sentFor_travel timeout maxRedirects 0 n (sentFor_outbound ho)

end Client

/-! ### Responses that come back -/

/-- What the gateway adds for other origins is of no hop. -/
theorem hops_overlay (x : Response) :
    hops (Api.overlay Api.originHeaders x).headers = hops x.headers := by
  have hadded : hops Api.originHeaders = [] := by decide
  have hreplaced : ∀ n ∈ (Api.originHeaders.map (·.1)).filter (· ≠ "vary"),
      isHopHeader n = false := by decide
  calc hops (Api.overlay Api.originHeaders x).headers
      = hops (x.headers.without ((Api.originHeaders.map (·.1)).filter (· ≠ "vary"))) ++
          hops Api.originHeaders := List.filter_append _ _
    _ = hops x.headers := by rw [hadded, List.append_nil]; exact filter_without hreplaced _

theorem hops_refusal (f : Fault) : hops (Proxy.refusal f).headers = [] := rfl

namespace Api

variable {g : Gateway} {r : Request} {service path : String}

/-- The headers of the answer that the journey of a request ends with. -/
def answeredHeaders (g : Gateway) (service path : String) (r : Request) : Headers :=
  match journey? g service path r with
  | some (_, j) => (j.result.toOption.map (·.headers)).getD []
  | none => []

theorem sentFor_forward (patience : Option Nat) :
    ∀ o ∈ (forward g service path r patience).2.requests, SentFor r.headers o := by
  cases h : journey? g service path r with
  | none =>
    obtain ⟨f, hf⟩ := forward_of_no_journey h patience
    rw [hf]
    nofun
  | some p =>
    obtain ⟨i, j⟩ := p
    obtain ⟨-, body, -, rfl⟩ := journey_spec h
    rw [forward_of_journey h, requests_arrival]
    exact Client.sentFor_send g.network g.settings.proxyTimeout r.method _ body

theorem hops_forward (patience : Option Nat) {x : Response}
    (hx : (forward g service path r patience).2.response = some x) :
    hops x.headers = strays (answeredHeaders g service path r) := by
  cases h : journey? g service path r with
  | none =>
    obtain ⟨f, hf⟩ := forward_of_no_journey h patience
    rw [hf] at hx
    cases hx
    rw [answeredHeaders, h]
    exact hops_refusal f
  | some p =>
    obtain ⟨i, j⟩ := p
    rw [forward_of_journey h, arrival] at hx
    rw [answeredHeaders, h]
    dsimp only
    split at hx
    · cases hx
    · cases hj : j.result with
      | error t =>
        rw [hj] at hx
        cases hx
        exact hops_refusal _
      | ok reply =>
        rw [hj] at hx
        cases hx
        exact hops_forwardable reply.headers

/-- Whatever the caller and the instance give, in any letter case and as often as they like:
of the headers of one hop the strays go out, once to every address that a redirection leads
to, and come back, and nothing else does; the only host that goes out is the URL's. -/
theorem hops_that_cross (h : forwardedAs? r = some (service, path)) (patience : Option Nat)
    (asked answered : Headers) (hasked : r.headers = Headers.ofWire asked)
    (hanswered : answeredHeaders g service path r = Headers.ofWire answered) :
    let s := (respond g r patience).2
    (∀ o ∈ s.requests,
      hops (o.headers.without ["host"]) = strays (Headers.ofWire asked) ∧
        (o.headers.filter fun h => h.1 = "host") = [("host", Text.bytes o.url.authority)]) ∧
      ∀ x, s.response = some x → hops x.headers = strays (Headers.ofWire answered) := by
  intro s
  have hs : s = _ := respond_of_forwarded h patience
  rw [hs, ← hasked, ← hanswered]
  refine ⟨fun o ho => ?_, fun x hx => ?_⟩
  · have hsent := sentFor_forward patience o ho
    exact ⟨hsent.carries.hops_without_host, hsent.host⟩
  · obtain ⟨y, hy, rfl⟩ := Option.map_eq_some_iff.1 hx
    rw [hops_overlay]
    exact hops_forward patience hy

theorem hops_that_cross_mixed :
    let asked := [("Proxy-Status", ascii "a"), ("CONNECTION", ascii "close"), ("Host", ascii "b")]
    let answered := [("Keep-Alive", ascii "5"), ("PROXY-STATUS", ascii "c")]
    let routes := Keyed.ofList [("/x", [.reply 0 200 (Headers.ofWire answered) [] .complete])]
    let r := { soleRequest with headers := Headers.ofWire asked }
    let s := (respond (soleGateway routes) r none).2
    s.requests.length = 1 ∧
      (∀ o ∈ s.requests, hops (o.headers.without ["host"]) = [("proxy-status", ascii "a")]) ∧
      ∀ x, s.response = some x → hops x.headers = [("proxy-status", ascii "c")] := by
  intro asked answered routes r s
  have hforwarded : forwardedAs? r = some ("api", "/x") := by decide +kernel
  have hanswered : answeredHeaders (soleGateway routes) "api" "/x" r = Headers.ofWire answered := by
    decide +kernel
  have houtward : strays (Headers.ofWire asked) = [("proxy-status", ascii "a")] := by
    decide +kernel
  have hback : strays (Headers.ofWire answered) = [("proxy-status", ascii "c")] := by
    decide +kernel
  obtain ⟨hrequests, hresponse⟩ :=
    hops_that_cross hforwarded none asked answered rfl hanswered
  refine ⟨by decide +kernel, fun o ho => ?_, fun x hx => ?_⟩
  · rw [← houtward]
    exact (hrequests o ho).1
  · rw [← hback]
    exact hresponse x hx

/-- A header about the connection of a caller reaches the instance, and one about the
connection of the instance reaches the caller. -/
theorem connection_crosses :
    let answered := [("proxy-connection", ascii "close")]
    let routes := Keyed.ofList [("/x", [.reply 0 200 answered [] .complete])]
    let r := { soleRequest with headers := [("proxy-connection", ascii "keep-alive")] }
    let s := (respond (soleGateway routes) r none).2
    s.requests.map (·.headers) =
        [[("proxy-connection", ascii "keep-alive"), ("host", ascii "10.0.0.1:9000"),
          ("accept", ascii "*/*")]] ∧
      s.response.map (·.headers) = some (answered ++ originHeaders) := by
  decide +kernel

end Api

end Switchyard
