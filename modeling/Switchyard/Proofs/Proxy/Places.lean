import Switchyard.Health.Probe
import Switchyard.Proofs.Proxy.Sending
import Switchyard.Proofs.Registry.Laws

/-! The place where an instance is contacted. A registration gives an address, and whatever is not
blank is taken and put before the port. So an instance is contacted at its address just when that
is a host as a URL has it; an IPv6 address would have to be in brackets, and without them there is
no URL at all. -/
namespace Switchyard

open Http Http.Url

/-! ### Hosts and places -/

/-- Whether a text is a host as a URL has it, apart from its case. -/
def NamesHost (names : Host.Names) (address : String) : Prop :=
  Host.parse? names address.toList = some (address.toList.map Char.toLower)

/-- That a URL leads to a host and a port, and there to what a text behind a slash asks for. -/
structure Http.Url.LeadsTo (u : Url) (host : List Char) (port : UInt16) (rest : List Char) :
    Prop where
  host : u.host.toList = host
  port : u.port = port.toNat
  rest : (u.path, u.query) = readRest [] (cleanedEnd rest)
  plain : u.secure = false ∧ u.user = "" ∧ u.password = none

/-- The host of a URL is one that has been read. -/
theorem Http.Url.host_of_parse? {names : Host.Names} {s : String} {u : Url}
    (h : parse? names s = some u) : ∃ given, Host.parse? names given = some u.host.toList := by
  have hread {secure : Bool} {cs : List Char} (h : readAuthority names secure cs = some u) :
      ∃ given, Host.parse? names given = some u.host.toList := by
    obtain ⟨host, hhost, h⟩ := Option.bind_eq_some_iff.1 h
    obtain ⟨port, -, h⟩ := Option.bind_eq_some_iff.1 h
    cases h
    exact ⟨_, hhost.trans (by rw [String.toList_ofList])⟩
  unfold parse? at h
  split at h
  · exact hread h
  · exact hread h
  · cases h

section

variable {names : Host.Names} {host : List Char} {i : Instance} {path : List Char}
  {query : Option String}

theorem url_chars (i : Instance) (path : List Char) (query : Option String) :
    Target.url i (String.ofList ('/' :: path)) query =
      String.ofList (schemeChars ++ ((i.address.toList ++
        ':' :: Numeric.natDigits i.port.toNat) ++ '/' :: (path ++ queryChars query))) := by
  rw [url_eq, authority_toList]

/-- A target leads to the host that the address of the instance is read as. -/
theorem exists_url_leadsTo (hhost : Host.parse? names i.address.toList = some host)
    (path : List Char) (query : Option String) :
    ∃ u, Url.parse? names (Target.url i (String.ofList ('/' :: path)) query) = some u ∧
      u.LeadsTo host i.port (path ++ queryChars query) := by
  rw [url_chars]
  exact ⟨_, parse?_host hhost (Nat.le_of_lt_succ i.port.toNat_lt), String.toList_ofList, rfl, rfl,
    rfl, rfl, rfl⟩

/-- It leads to the address itself just when that is a host. -/
theorem leadsTo_iff (names : Host.Names) (i : Instance) (path : List Char)
    (query : Option String) :
    (∃ u, Url.parse? names (Target.url i (String.ofList ('/' :: path)) query) = some u ∧
      u.LeadsTo (i.address.toList.map Char.toLower) i.port (path ++ queryChars query)) ↔
        NamesHost names i.address := by
  constructor
  · rintro ⟨u, hu, hleads⟩
    obtain ⟨given, hgiven⟩ := host_of_parse? hu
    -- no character of the address ends the host, as none of a host's own does
    have htext : IsHostText i.address.toList := isHostText_of_lowered (hleads.host ▸ hgiven)
    rw [url_chars, htext.parse?_eq (Nat.le_of_lt_succ i.port.toNat_lt)] at hu
    obtain ⟨host, hhost, rfl⟩ := Option.map_eq_some_iff.1 hu
    have hname := hleads.host
    rw [String.toList_ofList] at hname
    rw [NamesHost, hhost, hname]
  · exact fun hname => exists_url_leadsTo hname path query

/-- The address of groups without its brackets gives no target. -/
theorem no_url_of_ipv6? {groups : List Nat} (h : Host.ipv6? i.address.toList = some groups)
    (names : Host.Names) (path : List Char) (query : Option String) :
    Url.parse? names (Target.url i (String.ofList ('/' :: path)) query) = none := by
  rw [url_chars]
  exact parse?_of_ipv6? h i.port.toNat (path ++ queryChars query)

/-! ### Requests -/

/-- What is sent first to a target goes where the target says, and without a URL nothing is. -/
theorem Client.send_place (n : Network) (timeout : Nat) (method target : String)
    (headers : Headers) (body : Bytes) :
    (∀ o, (send n timeout method target headers body).requests.head? = some o →
      ∃ u, Url.parse? n.resolver.names target = some u ∧
        o.url = { u with user := "", password := none }) ∧
    (Url.parse? n.resolver.names target = none →
      send n timeout method target headers body = ⟨n, [], 0, .error .failed⟩) := by
  constructor
  · intro o ho
    cases hout : outbound? n.resolver method target headers body with
    | none =>
      rw [send_of_no_outbound timeout hout] at ho
      cases ho
    | some first =>
      rw [send_of_outbound timeout hout] at ho
      rw [(isChain_travel timeout maxRedirects 0 n first).2 o ho]
      obtain ⟨u, hu, rfl⟩ := Option.map_eq_some_iff.1 hout
      exact ⟨u, (url?_eq_some_iff.1 hu).1, rfl⟩
  · intro hnone
    have hplace : n.resolver.url? target = none := by
      rw [Resolver.url?, hnone]
      rfl
    exact send_of_no_outbound timeout (Option.map_eq_none_iff.2 hplace)

/-- A request to an instance whose address is read as a host goes to that host first. -/
theorem leadsTo_of_first {n : Network}
    (hhost : Host.parse? n.resolver.names i.address.toList = some host) {timeout : Nat}
    {method : String} {headers : Headers} {body : Bytes} {o : Outbound}
    (ho : (Client.send n timeout method (Target.url i (String.ofList ('/' :: path)) query) headers
      body).requests.head? = some o) :
    o.url.LeadsTo host i.port (path ++ queryChars query) := by
  obtain ⟨u, hu, hurl⟩ := (Client.send_place n timeout method _ headers body).1 o ho
  obtain ⟨u', hu', hleads⟩ := exists_url_leadsTo hhost path query
  cases hu.symm.trans hu'
  rw [hurl]
  exact ⟨hleads.host, hleads.port, hleads.rest, hleads.plain.1, rfl, rfl⟩

/-- So does a probe of it. -/
theorem HttpProbe.leadsTo_of_first {h : HttpProbe} {n : Network}
    (hhost : Host.parse? n.resolver.names i.address.toList = some host)
    (hpath : h.path = String.ofList ('/' :: path)) {o : Outbound}
    (ho : (h.probe n i).1.requests.head? = some o) : o.url.LeadsTo host i.port path := by
  have hsent : (Client.send n h.timeout "GET" (Target.url i (String.ofList ('/' :: path)) none)
      [] []).requests.head? = some o := hpath ▸ ho
  have hleads := Switchyard.leadsTo_of_first hhost hsent
  rwa [queryChars, List.append_nil] at hleads

/-- So does a caller's request. -/
theorem Proxy.leadsTo_of_first {n : Network}
    (hhost : Host.parse? n.resolver.names i.address.toList = some host) {timeout : Nat}
    {r : Request} {body : Bytes} {o : Outbound}
    (ho : (dispatch n timeout i (String.ofList ('/' :: path)) r body).requests.head? = some o) :
    o.url.LeadsTo host i.port (path ++ queryChars r.query) := by
  rw [dispatch] at ho
  exact Switchyard.leadsTo_of_first hhost ho

/-- A probe whose target is no URL fails at once. -/
theorem HttpProbe.probe_of_no_url {h : HttpProbe} {n : Network}
    (hnone : Url.parse? n.resolver.names (i.baseUrl ++ h.path) = none) : h.probe n i =
      (⟨n, [], 0, .error .failed⟩, .unhealthy TransportFault.undescribed) := by
  rw [probe, (Client.send_place n h.timeout "GET" _ [] []).2 hnone]
  rfl

/-- So does a caller's request. -/
theorem Proxy.dispatch_of_no_url {path : String} {r : Request} {n : Network}
    (hnone : Url.parse? n.resolver.names (Target.url i path r.query) = none) (timeout : Nat)
    (body : Bytes) : dispatch n timeout i path r body = ⟨n, [], 0, .error .failed⟩ := by
  rw [dispatch, (Client.send_place n timeout r.method _ _ body).2 hnone]

end

/-! ### Kinds of addresses -/

section

variable {address : String}

theorem namesHost_of_ipv4 (names : Host.Names) {k : Nat} (hk : k < 4294967296)
    (h : address.toList = Host.ipv4Chars k) : NamesHost names address := by
  rw [NamesHost, h, Host.parse?_ipv4Chars hk, Host.map_toLower_ipv4Chars]

theorem namesHost_of_name (names : Host.Names) (hne : address.toList ≠ [])
    (hforbidden : ∀ c ∈ address.toList, Host.isForbidden c = false)
    (hplain : Host.isInternational address.toList = false)
    (hname : Host.endsInNumber (address.toList.map Char.toLower) = false) :
    NamesHost names address := by
  rw [NamesHost, Host.parse?_ascii hne hforbidden hplain]
  simp only [hname]
  rfl

theorem namesHost_of_bracketed (names : Host.Names) {cs : List Char} {groups : List Nat}
    (hgroups : Host.ipv6? cs = some groups)
    (hcanonical : cs.map Char.toLower = Host.ipv6Chars groups)
    (h : address.toList = '[' :: cs ++ [']']) : NamesHost names address := by
  have hlower : ('[' :: cs ++ [']']).map Char.toLower = '[' :: cs.map Char.toLower ++ [']'] := by
    rw [List.map_append, List.map_cons]
    rfl
  rw [NamesHost, h, Host.parse?_bracketed hgroups, hlower, hcanonical]

end

namespace Registry

theorem address_ne_nil {q : Registration} (hq : q.defect? = none) : q.address.toList ≠ [] := by
  intro hnil
  have hvoid : Text.isVoid q.address = true := by
    rw [Text.isVoid, hnil]
    rfl
  unfold Registration.defect? at hq
  rw [if_pos hvoid] at hq
  split at hq <;> cases hq

/-- An instance is contacted at the address and the port of its registration just when the address
is a host. It is if it is an IPv4 address in its usual spelling, an ASCII name that spells no other
one, or an IPv6 address in brackets; what else is read as a host leads to that host; and for an
IPv6 address without brackets nothing ever goes out, though it is taken. -/
theorem contacts_named_place_iff (w : Resolver) (r : Registry) (now : Instant) (q : Registration)
    (hq : q.defect? = none) :
    ∃ id i, (r.register now q).answer = .ok id ∧ (r.register now q).state.get? id = some i ∧
      i.address = q.address ∧ i.port = q.port ∧
      (∀ path query, (∃ u, Url.parse? w.names (Target.url i (String.ofList ('/' :: path)) query) =
          some u ∧
        u.LeadsTo (q.address.toList.map Char.toLower) q.port (path ++ queryChars query)) ↔
          NamesHost w.names q.address) ∧
      -- what goes out first for a probe and for a caller
      (∀ host, Host.parse? w.names q.address.toList = some host → ∀ path,
        (∀ query, ∃ u, Url.parse? w.names (Target.url i (String.ofList ('/' :: path)) query) =
          some u ∧ u.LeadsTo host q.port (path ++ queryChars query)) ∧
        ∀ n : Network, n.resolver = w → ∀ o,
          (∀ h : HttpProbe, h.path = String.ofList ('/' :: path) →
            (h.probe n i).1.requests.head? = some o → o.url.LeadsTo host q.port path) ∧
          ∀ timeout request body, (Proxy.dispatch n timeout i (String.ofList ('/' :: path)) request
            body).requests.head? = some o →
              o.url.LeadsTo host q.port (path ++ queryChars request.query)) ∧
      -- the kinds of addresses
      (∀ k < 4294967296, q.address.toList = Host.ipv4Chars k → NamesHost w.names q.address) ∧
      ((∀ c ∈ q.address.toList, Host.isForbidden c = false) →
        Host.isInternational q.address.toList = false →
        Host.endsInNumber (q.address.toList.map Char.toLower) = false →
        NamesHost w.names q.address) ∧
      (∀ cs groups, Host.ipv6? cs = some groups → cs.map Char.toLower = Host.ipv6Chars groups →
        q.address.toList = '[' :: cs ++ [']'] → NamesHost w.names q.address) ∧
      ∀ groups, Host.ipv6? q.address.toList = some groups → ∀ n : Network, n.resolver = w →
        ∀ timeout path,
          (∀ query, Url.parse? w.names (Target.url i (String.ofList ('/' :: path)) query) =
            none) ∧
          (HttpProbe.mk (String.ofList ('/' :: path)) timeout).probe n i =
            (⟨n, [], 0, .error .failed⟩, .unhealthy TransportFault.undescribed) ∧
          ∀ request body, Proxy.dispatch n timeout i (String.ofList ('/' :: path)) request body =
            ⟨n, [], 0, .error .failed⟩ := by
  have hget : (r.register now q).state.get? (r.idFor now q) = some (r.newRecord now q) := by
    rw [get?_register_of_sound hq, if_pos rfl]
  have hanswer : (r.register now q).answer = .ok (r.idFor now q) := by
    rw [register_of_sound hq]
  refine ⟨_, _, hanswer, hget, rfl, rfl, leadsTo_iff w.names (r.newRecord now q), ?_,
    fun k hk h => namesHost_of_ipv4 w.names hk h, namesHost_of_name w.names (address_ne_nil hq),
    fun cs groups hgroups hcanonical h => namesHost_of_bracketed w.names hgroups hcanonical h, ?_⟩
  · intro host hhost path
    have hhost : Host.parse? w.names (r.newRecord now q).address.toList = some host := hhost
    refine ⟨exists_url_leadsTo hhost path, ?_⟩
    rintro n rfl o
    exact ⟨fun h hpath ho => HttpProbe.leadsTo_of_first hhost hpath ho,
      fun timeout request body ho => Proxy.leadsTo_of_first hhost ho⟩
  · rintro groups hgroups n rfl timeout path
    have hgroups : Host.ipv6? (r.newRecord now q).address.toList = some groups := hgroups
    have hnone := no_url_of_ipv6? hgroups n.resolver.names path
    refine ⟨hnone, HttpProbe.probe_of_no_url ?_, fun request body =>
      Proxy.dispatch_of_no_url (hnone request.query) timeout body⟩
    exact hnone none

theorem contacts_named_place_iff_local :
    let q := (Registration.new "api" "LocalHost" 9000).withId "api-1"
    q.defect? = none ∧ ∃ i u,
      (({} : Registry).register ⟨0, 0⟩ q).state.get? "api-1" = some i ∧
        Url.parse? Resolver.plain.names (Target.url i "/a/b" (some "k=v")) = some u ∧
        u.host = "localhost" ∧ u.port = 9000 ∧ u.path = "/a/b" ∧ u.query = some "k=v" := by
  intro q
  have hq : q.defect? = none := by decide +kernel
  obtain ⟨id, i, hanswer, hget, -, -, hiff, -, -, hname, -⟩ :=
    contacts_named_place_iff .plain {} ⟨0, 0⟩ q hq
  have hid : (({} : Registry).register ⟨0, 0⟩ q).answer = .ok "api-1" := by decide +kernel
  cases hid.symm.trans hanswer
  have hall : q.address.toList.all (fun c => !Host.isForbidden c) = true := by decide +kernel
  have hforbidden : ∀ c ∈ q.address.toList, Host.isForbidden c = false := by
    simpa using List.all_eq_true.1 hall
  have hplace : NamesHost Resolver.plain.names q.address :=
    hname hforbidden (by decide +kernel) (by decide +kernel)
  obtain ⟨u, hu, hleads⟩ := (hiff "a/b".toList (some "k=v")).2 hplace
  have hrest : (u.path, u.query) = ("/a/b", some "k=v") := hleads.rest.trans (by decide +kernel)
  obtain ⟨hpath, hquery⟩ := Prod.ext_iff.1 hrest
  refine ⟨hq, i, u, hget, hu, ?_, hleads.port, hpath, hquery⟩
  rw [← String.toList_inj, hleads.host]
  decide +kernel

/-- An IPv6 address is registered and cannot be contacted, and an address with a slash leads to
another port. -/
theorem contacts_other_place :
    let names := Resolver.plain.names
    let q (address : String) := (Registration.new "api" address 9000).withId "api-1"
    let target? (address : String) :=
      ((({} : Registry).register ⟨0, 0⟩ (q address)).state.get? "api-1").map fun i =>
        Target.url i "/x" none
    (q "::1").defect? = none ∧ target? "::1" = some "http://::1:9000/x" ∧
      Url.parse? names "http://::1:9000/x" = none ∧
      Url.parse? names "http://[::1]:9000/x" =
        some { host := "[::1]", port := 9000, path := "/x" } ∧
      (q "10.0.0.1/").defect? = none ∧ target? "10.0.0.1/" = some "http://10.0.0.1/:9000/x" ∧
      Url.parse? names "http://10.0.0.1/:9000/x" =
        some { host := "10.0.0.1", port := 80, path := "/:9000/x" } := by
  decide +kernel

end Registry

end Switchyard
