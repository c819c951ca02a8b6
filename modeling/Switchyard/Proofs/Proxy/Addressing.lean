import Switchyard.Proofs.Api.Proxied
import Switchyard.Proofs.Balance.Target
import Switchyard.Proofs.Http.Authority

/-! Where a forwarded request arrives. The path that the caller sent after the service's name is
put behind the address of the instance, and the client reads the whole as a URL. So it arrives
as it was sent just when reading a URL keeps it; a path with dots is resolved, whether the dots
are encoded or not, and one with other characters is rewritten. -/
namespace Switchyard

open Http Http.Url

/-! ### Targets -/

/-- An address that is a host and nothing more of a URL. -/
def isPlainAddress (address : String) : Bool :=
  address.toList.all fun c => !isEdge c && !endsAuthority c

theorem authority_toList (i : Instance) :
    i.authority.toList = i.address.toList ++ ':' :: Numeric.natDigits i.port.toNat := by
  simp [Instance.authority, Numeric.natText]

theorem isAuthority_of_plain {i : Instance} (h : isPlainAddress i.address = true) :
    IsAuthority i.authority.toList := by
  rw [authority_toList]
  refine isAuthority_withPort (fun c hc => ?_) i.port.toNat
  have hplain := List.all_eq_true.1 h c hc
  simpa using hplain

theorem baseUrl_eq (i : Instance) :
    i.baseUrl = String.ofList (schemeChars ++ i.authority.toList) := by
  rw [← String.toList_inj]
  simp [Instance.baseUrl, schemeChars]

/-- What a query adds to a target. -/
def queryChars : Option String → List Char
  | some q => if q = "" then [] else '?' :: q.toList
  | none => []

theorem queryChars_cases (query : Option String) :
    queryChars query = [] ∨ ∃ cs, queryChars query = '?' :: cs := by
  unfold queryChars
  split
  · split
    · exact .inl rfl
    · exact .inr ⟨_, rfl⟩
  · exact .inl rfl

theorem url_eq (i : Instance) (path : List Char) (query : Option String) :
    Target.url i (String.ofList ('/' :: path)) query =
      String.ofList (schemeChars ++ (i.authority.toList ++ '/' :: (path ++ queryChars query))) := by
  rw [← String.toList_inj]
  unfold Target.url queryChars
  rw [baseUrl_eq]
  cases query with
  | none => simp
  | some q =>
    by_cases hq : q = ""
    · simp [hq]
    · simp [hq]

/-! ### Routes -/

namespace Api

variable {g : Gateway} {r : Request} {name tail service path : String}

/-- What the path of a request to the proxy begins with. -/
def proxyChars : List Char := ['/', 'a', 'p', 'i', '/', 'p', 'r', 'o', 'x', 'y', '/']

/-- The service's name as a caller sent it. -/
def sentName (path : String) : String :=
  String.ofList ((path.toList.drop proxyChars.length).takeWhile (· ≠ '/'))

/-- What a caller sent after the service's name. -/
def sentTail (path : String) : String :=
  String.ofList ((path.toList.drop proxyChars.length).dropWhile (· ≠ '/'))

/-- The path that a caller shows for an instance. -/
def shown (path : String) : String := if sentTail path = "" then "/" else sentTail path

theorem sent_of_eq {rest : List Char} (hpath : path.toList = proxyChars ++ (name.toList ++ rest))
    (hname : '/' ∉ name.toList) (hrest : rest = [] ∨ ∃ p, rest = '/' :: p) :
    sentName path = name ∧ sentTail path = String.ofList rest := by
  have hplain : ∀ c ∈ name.toList, decide (c ≠ '/') = true := by
    intro c hc
    rw [decide_eq_true_eq]
    rintro rfl
    exact hname hc
  have hends : rest.takeWhile (· ≠ '/') = [] ∧ rest.dropWhile (· ≠ '/') = rest := by
    rcases hrest with rfl | ⟨p, rfl⟩ <;> exact ⟨rfl, rfl⟩
  rw [sentName, sentTail, hpath, List.drop_left, List.takeWhile_append_of_pos hplain,
    List.dropWhile_append_of_pos hplain, hends.1, hends.2, List.append_nil, String.ofList_toList]
  exact ⟨rfl, rfl⟩

theorem parts_of_root (h : Route.ofPath? path = some (.proxyRoot name)) :
    (path.toList.splitOn '/').map String.ofList = ["", "api", "proxy", name] := by
  unfold Route.ofPath? at h
  split at h <;> try cases h
  · split at h <;> cases h
  · rename_i found hparts
    split at h <;> cases h
    exact hparts
  · dsimp only at h
    split at h <;> cases h

theorem parts_of_below {below : String} (h : Route.ofPath? path = some (.proxyPath name below)) :
    ∃ rest, (path.toList.splitOn '/').map String.ofList =
      "" :: "api" :: "proxy" :: name :: rest ∧ rest ≠ [] := by
  unfold Route.ofPath? at h
  split at h <;> try cases h
  · split at h <;> cases h
  · split at h <;> cases h
  · rename_i found rest hnone hparts
    dsimp only at h
    split at h <;> cases h
    exact ⟨rest, hparts, hnone⟩

/-- A path put together from its parts. -/
theorem path_of_parts {rest : List String} (h : (path.toList.splitOn '/').map String.ofList =
      "" :: "api" :: "proxy" :: name :: rest) :
    '/' ∉ name.toList ∧
      path.toList = proxyChars ++ (name.toList ++ rest.flatMap fun s => '/' :: s.toList) := by
  have hparts : path.toList.splitOn '/' =
      [] :: ['a', 'p', 'i'] :: ['p', 'r', 'o', 'x', 'y'] :: name.toList ::
        rest.map String.toList := by
    have := congrArg (List.map String.toList) h
    simpa using this
  have hpath := flatMap_splitOn '/' path.toList
  constructor
  · apply not_mem_of_mem_splitOn
    rw [hparts]
    simp
  · rw [hparts] at hpath
    simpa [proxyChars, List.flatMap_map] using hpath.symm

theorem subPath_proxied (hpath : path.toList = proxyChars ++ (name.toList ++ '/' :: rest))
    (hname : '/' ∉ name.toList) : Target.subPath path = String.ofList ('/' :: rest) := by
  have hfirst : Target.IsFirst "/proxy/".toList "/api".toList := by decide
  have hparts : path = "/api" ++ "/proxy/" ++ name ++ "/" ++ String.ofList rest := by
    rw [← String.toList_inj, hpath]
    simp [proxyChars]
  rw [hparts, Target.subPath_below hfirst hname, ← String.toList_inj]
  simp

/-- The proxy forwards for the service whose name was sent, and the path as it was sent. -/
theorem forwardedAs?_eq (h : forwardedAs? r = some (service, path)) :
    r.path = "/api/proxy/" ++ sentName r.path ++ sentTail r.path ∧
      service = decoded (sentName r.path) ∧ path = shown r.path ∧
      ∃ p, shown r.path = String.ofList ('/' :: p) := by
  obtain ⟨-, route, hroute, -, hroutes⟩ := forwardedAs?_spec h
  rcases hroutes with ⟨name, rfl, rfl, rfl⟩ | ⟨name, below, rfl, rfl, rfl⟩
  · obtain ⟨hname, hpath⟩ := path_of_parts (parts_of_root hroute)
    obtain ⟨hsent, htail⟩ := sent_of_eq hpath hname (.inl rfl)
    rw [shown, hsent, htail]
    refine ⟨?_, rfl, rfl, [], by decide⟩
    rw [← String.toList_inj, hpath]
    simp [proxyChars]
  · obtain ⟨rest, hparts, hne⟩ := parts_of_below hroute
    obtain ⟨part, rest, rfl⟩ := List.exists_cons_of_ne_nil hne
    obtain ⟨hname, hpath⟩ := path_of_parts hparts
    rw [List.flatMap_cons, List.cons_append] at hpath
    obtain ⟨hsent, htail⟩ := sent_of_eq hpath hname (.inr ⟨_, rfl⟩)
    rw [shown, hsent, htail, subPath_proxied hpath hname,
      if_neg (by rw [String.ofList_eq_empty_iff]; nofun)]
    refine ⟨?_, rfl, rfl, _, rfl⟩
    rw [← String.toList_inj, hpath]
    simp [proxyChars]

/-! ### Arrival -/

/-- A path that arrives as it is sent: its characters are kept and no segment is made of dots. -/
structure IsKeptPath (path : String) : Prop where
  chars : ∀ c ∈ path.toList, isPathChar c = true
  segments : ∀ s ∈ path.toList.splitOn '/', dots s = 0

theorem isKeptPath_iff (p : List Char) :
    IsKeptPath (String.ofList ('/' :: p)) ↔
      (∀ c ∈ p, isPathChar c = true) ∧ ∀ s ∈ p.splitOn '/', dots s = 0 := by
  have hslash : isPathChar '/' = true := by decide
  have hempty : dots [] = 0 := by decide
  constructor
  · rintro ⟨hchars, hsegments⟩
    rw [String.toList_ofList] at hchars hsegments
    rw [splitOn_cons_self] at hsegments
    exact ⟨fun c hc => hchars c (List.mem_cons_of_mem _ hc),
      fun s hs => hsegments s (List.mem_cons_of_mem _ hs)⟩
  · rintro ⟨hchars, hsegments⟩
    constructor
    · simpa [hslash] using hchars
    · rw [String.toList_ofList, splitOn_cons_self]
      simpa [hempty] using hsegments

/-- A query that arrives as it is sent. -/
def IsKeptQuery (query : Option String) : Prop :=
  ∀ q, query = some q → ∀ c ∈ q.toList, isQueryChar c = true

theorem query_eq_iff {names : Host.Names} {auth p : List Char} {query : Option String} {url : Url}
    (hauth : IsAuthority auth) (hkept : ∀ c ∈ p, isPathChar c = true)
    (hurl : Url.parse? names
      (String.ofList (schemeChars ++ (auth ++ '/' :: (p ++ queryChars query)))) = some url) :
    url.query = query.filter (· ≠ "") ↔ IsKeptQuery query := by
  obtain ⟨hnone, hsome⟩ := @IsAuthority.query_of_kept names auth url _ hauth hkept
  cases query with
  | none =>
    rw [queryChars, List.append_nil] at hurl
    simp [hnone hurl, IsKeptQuery]
  | some q =>
    by_cases hq : q = ""
    · subst hq
      rw [queryChars, if_pos rfl, List.append_nil] at hurl
      rw [hnone hurl]
      simp [IsKeptQuery, Option.filter]
    · rw [queryChars, if_neg hq] at hurl
      rw [hsome _ hurl, Option.filter_some, if_pos (by simpa using hq), Option.some.injEq,
        ← String.toList_inj, encodeQuery_iff]
      simp [IsKeptQuery]

/-- The first request that goes out for a caller arrives at the host and port of the chosen
instance. Its path is what the caller sent after the service's name just when reading a URL
keeps it, and so is the query behind such a path. -/
theorem arrives_as_sent_iff {o : Outbound} {patience : Option Nat}
    (ho : (respond g r patience).2.requests.head? = some o) :
    let name := decoded (sentName r.path)
    r.path = "/api/proxy/" ++ sentName r.path ++ sentTail r.path ∧
      ∃ i, g.proxy.balancer.choose name g.draw (g.registry.healthy name) = some i ∧
        (isPlainAddress i.address = true →
          (∃ base, Url.parse? g.network.resolver.names i.baseUrl = some base ∧
            o.url.host = base.host ∧
            o.url.port = base.port) ∧
          (o.url.path = shown r.path ↔ IsKeptPath (shown r.path)) ∧
          (IsKeptPath (shown r.path) →
            (o.url.query = r.query.filter (· ≠ "") ↔ IsKeptQuery r.query))) := by
  intro name
  obtain ⟨service, path, i, body, hforwarded, hi, hout⟩ := outbound_of_first ho
  obtain ⟨hpath, rfl, rfl, p, hp⟩ := forwardedAs?_eq hforwarded
  refine ⟨hpath, i, hi, fun hplain => ?_⟩
  obtain ⟨url, hplace, rfl⟩ := Option.map_eq_some_iff.1 hout
  obtain ⟨hurl, -⟩ := url?_eq_some_iff.1 hplace
  have hauth := isAuthority_of_plain hplain
  rw [hp, url_eq] at hurl
  rw [hp, isKeptPath_iff, baseUrl_eq]
  obtain ⟨base, hbase, hhost, hport⟩ := hauth.address hurl
  refine ⟨⟨base, hbase, hhost, hport⟩, ?_, fun hkept => ?_⟩
  · have hiff := hauth.path_iff (queryChars_cases r.query) hurl
    rw [← String.toList_inj, String.toList_ofList]
    exact hiff
  · have hiff := query_eq_iff hauth hkept.1 hurl
    exact hiff

theorem arrives_as_sent_encoded :
    let r : Request := { path := "/api/proxy/api/a%2Fb//c;d", query := some "k=%20v" }
    ∃ o, (respond (soleGateway ∅) r none).2.requests.head? = some o ∧ o.url.host = "10.0.0.1" ∧
      o.url.path = "/a%2Fb//c;d" ∧ o.url.query = some "k=%20v" := by
  intro r
  let o : Outbound :=
    { soleOutbound with
      url := { host := "10.0.0.1", port := 9000, path := "/a%2Fb//c;d", query := some "k=%20v" } }
  have ho : (respond (soleGateway ∅) r none).2.requests.head? = some o := by decide +kernel
  have hname : decoded (sentName r.path) = "api" := by decide +kernel
  have hshown : shown r.path = "/a%2Fb//c;d" := by decide +kernel
  have hplain : isPlainAddress soleInstance.address = true := by decide +kernel
  have hkept : IsKeptPath "/a%2Fb//c;d" :=
    ⟨List.all_eq_true.1 (by decide +kernel), by decide +kernel⟩
  have hquery : IsKeptQuery (some "k=%20v") := by
    rintro _ ⟨⟩
    exact List.all_eq_true.1 (by decide +kernel)
  obtain ⟨-, i, hi, harrives⟩ := arrives_as_sent_iff ho
  rw [hname] at hi
  cases (sole_choice ∅).symm.trans hi
  rw [hshown] at harrives
  obtain ⟨-, hpath, hquery'⟩ := harrives hplain
  exact ⟨o, ho, rfl, hpath.2 hkept, (hquery' hkept).2 hquery⟩

/-- A path with encoded dots arrives as another one. -/
theorem arrives_elsewhere :
    let r : Request := { path := "/api/proxy/api/a/%2e%2e/b" }
    shown r.path = "/a/%2e%2e/b" ∧
      (respond (soleGateway ∅) r none).2.requests.map (·.url.path) = ["/b"] := by
  decide +kernel

end Api

end Switchyard
