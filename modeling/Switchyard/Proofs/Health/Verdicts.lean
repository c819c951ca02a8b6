import Switchyard.Health.Probe
import Switchyard.Proofs.Proxy.Addressing

/-! What a probe over the network finds. An instance is asked at its own host and port, and it is
found healthy just when a success comes in time at the end of at most ten redirections. So its own
answer decides as long as the client does not follow it; an answer that is followed decides
nothing, and whoever answers last does. -/
namespace Switchyard

open Http (Url Resolver)

namespace Client

/-! ### One answer -/

/-- Whether what comes of a request is a success within the time that is left. -/
def isSuccess (left : Nat) : Option Answer → Bool
  | some (.reply delay status _ _ _) => delay < left && 200 ≤ status && status ≤ 299
  | _ => false

/-- The request that is made after what comes of another one, and the time until then. -/
def next? (w : Resolver) (left : Nat) (o : Outbound) : Option Answer → Option (Nat × Outbound)
  | some (.reply delay status headers _ _) =>
    match turn w o status headers with
    | .next next => if delay < left then some (delay, next) else none
    | _ => none
  | _ => none

/-- The result of a journey that ends with what comes of a request. -/
def outcome (w : Resolver) (left : Nat) (o : Outbound) :
    Option Answer → Except TransportFault Reply
  | some (.reply delay status headers body ending) =>
    if left ≤ delay then .error .timedOut
    else if turn w o status headers = .astray then .error .failed
    else .ok ⟨status, headers, body, ending⟩
  | some .silent => .error .timedOut
  | some (.refuse delay) => .error (if left ≤ delay then .timedOut else .failed)
  | none => .error (if left = 0 then .timedOut else .failed)

variable {w : Resolver} {n : Network} {o next : Outbound}
  {timeout redirects elapsed left delay : Nat} {a? : Option Answer}

theorem not_isHealthy_error (t : TransportFault) :
    (HttpProbe.verdict (.error t)).isHealthy = false := by
  cases t <;> rfl

/-- What may be followed is no success. -/
theorem isSuccess_of_turn {status : Nat} {headers : Http.Headers}
    (h : turn w o status headers ≠ .final)
    (left delay : Nat) (body : Bytes) (ending : Http.Ending) :
    isSuccess left (some (.reply delay status headers body ending)) = false := by
  have hstatus := isRedirect_of_turn h
  simp only [isRedirect, List.contains_iff_mem, List.mem_cons, List.not_mem_nil,
    or_false] at hstatus
  simp only [isSuccess, Bool.and_eq_false_iff, decide_eq_false_iff_not]
  omega

theorem isHealthy_outcome (w : Resolver) (left : Nat) (o : Outbound) (a? : Option Answer) :
    (HttpProbe.verdict (outcome w left o a?)).isHealthy = isSuccess left a? := by
  match a? with
  | none | some (.refuse _) | some .silent => exact not_isHealthy_error _
  | some (.reply delay status headers body ending) =>
    rw [outcome]
    split
    · rename_i hlate
      rw [not_isHealthy_error, isSuccess, decide_eq_false (Nat.not_lt.2 hlate)]
      rfl
    · rename_i hdelay
      split
      · rename_i hastray
        have hmore : turn w o status headers ≠ .final := by
          rw [hastray]
          nofun
        rw [not_isHealthy_error, isSuccess_of_turn hmore]
      · rw [HttpProbe.verdict, isSuccess, decide_eq_true (Nat.not_le.1 hdelay)]
        split <;> simp_all [Verdict.isHealthy]

theorem exists_reply_of_next (h : next? w left o a? = some (delay, next)) :
    ∃ status headers body ending, a? = some (.reply delay status headers body ending) ∧
      delay < left ∧ turn w o status headers = .next next := by
  match a? with
  | none | some (.refuse _) | some .silent => cases h
  | some (.reply later status headers body ending) =>
    rw [next?] at h
    split at h
    · rename_i found hfound
      split at h
      · rename_i hdelay
        cases h
        exact ⟨status, headers, body, ending, rfl, hdelay, hfound⟩
      · cases h
    · cases h

/-- What is followed is no success. -/
theorem isSuccess_of_next (h : next? w left o a? = some (delay, next)) :
    isSuccess left a? = false := by
  obtain ⟨status, headers, body, ending, rfl, -, hnext⟩ := exists_reply_of_next h
  have hmore : turn w o status headers ≠ .final := by
    rw [hnext]
    nofun
  exact isSuccess_of_turn hmore left delay body ending

/-! ### Journeys -/

/-- A journey sends its first request if it has time for it and there is somebody to take it. -/
theorem head?_requests_travel (timeout redirects : Nat) (n : Network) (elapsed : Nat)
    (o : Outbound) :
    (travel timeout redirects n elapsed o).requests.head? =
      if timeout ≤ elapsed then none else (n.serve o).2.map fun _ => o := by
  obtain ⟨n', a?, hserve⟩ : ∃ n' a?, n.serve o = (n', a?) := ⟨_, _, rfl⟩
  unfold travel
  rw [hserve]
  split
  · rfl
  · cases a? with
    | none => rfl
    | some a =>
      cases a with
      | silent => rfl
      | refuse delay =>
        dsimp only
        split <;> rfl
      | reply delay status headers body ending =>
        dsimp only
        split
        · rfl
        · split
          · rfl
          · rfl
          · split <;> rfl

/-- A journey ends with an answer that is not followed. -/
theorem result_of_stay (h : next? n.resolver (timeout - elapsed) o (n.serve o).2 = none) :
    (travel timeout redirects n elapsed o).result =
      outcome n.resolver (timeout - elapsed) o (n.serve o).2 := by
  by_cases hover : timeout ≤ elapsed
  · have hnothing : timeout - elapsed = 0 := Nat.sub_eq_zero_of_le hover
    rw [travel, if_pos hover, hnothing]
    cases (n.serve o).2 with
    | none => rfl
    | some a => cases a <;> rfl
  · have hleft : timeout - elapsed ≠ 0 := by omega
    have hlate (delay : Nat) : timeout ≤ elapsed + delay ↔ timeout - elapsed ≤ delay := by omega
    cases hserve : (n.serve o).2 with
    | none =>
      have hpair : n.serve o = ((n.serve o).1, none) := Prod.ext rfl hserve
      rw [travel, if_neg hover, hpair, outcome, if_neg hleft]
    | some a =>
      cases a with
      | silent =>
        have hpair : n.serve o = ((n.serve o).1, some .silent) := Prod.ext rfl hserve
        rw [travel, if_neg hover, hpair]
        rfl
      | refuse delay =>
        have hpair : n.serve o = ((n.serve o).1, some (.refuse delay)) := Prod.ext rfl hserve
        rw [travel, if_neg hover, hpair, outcome]
        simp only [hlate]
        split <;> rfl
      | reply delay status headers body ending =>
        have hpair : n.serve o = ((n.serve o).1, some (.reply delay status headers body ending)) :=
          Prod.ext rfl hserve
        rw [outcome]
        by_cases hdelay : timeout - elapsed ≤ delay
        · rw [travel, if_neg hover, hpair, if_pos hdelay]
          simp only [if_pos ((hlate delay).2 hdelay)]
        · rw [travel_of_reply hserve (by omega), if_neg hdelay]
          rw [hserve, next?] at h
          cases hturn : turn n.resolver o status headers with
          | final => rfl
          | astray => cases redirects <;> rfl
          | next next =>
            rw [hturn] at h
            simp only [if_pos (Nat.not_le.1 hdelay)] at h
            cases h

/-- An answer that is followed leaves the result to what comes after it. -/
theorem result_of_next
    (h : next? n.resolver (timeout - elapsed) o (n.serve o).2 = some (delay, next)) :
    (travel timeout 0 n elapsed o).result = .error .failed ∧
      ∀ redirects, (travel timeout (redirects + 1) n elapsed o).result =
        (travel timeout redirects (n.serve o).1 (elapsed + delay) next).result := by
  obtain ⟨status, headers, body, ending, hserve, hdelay, hnext⟩ := exists_reply_of_next h
  have htime : elapsed + delay < timeout := by omega
  refine ⟨?_, fun redirects => ?_⟩
  · rw [travel_of_reply hserve htime, hnext]
  · rw [travel_of_reply hserve htime, hnext]

/-- A journey does not change how texts are read. -/
@[simp] theorem resolver_travel (timeout redirects : Nat) (n : Network) (elapsed : Nat)
    (o : Outbound) : (travel timeout redirects n elapsed o).network.resolver = n.resolver := by
  have served {n n' : Network} {o : Outbound} {a? : Option Answer} (h : n.serve o = (n', a?)) :
      n'.resolver = n.resolver := by
    rw [← n.resolver_serve o, h]
  fun_induction travel timeout redirects n elapsed o with
  | case1 => rfl
  | case10 =>
    rename_i ih
    exact ih.trans (served ‹_›)
  | _ => exact served ‹_›

/-- That a request leads to a success in time, at the end of at most so many redirections. -/
inductive Succeeds (timeout : Nat) : Nat → Network → Nat → Outbound → Prop where
  | atOnce {redirects elapsed : Nat} {n : Network} {o : Outbound}
      (success : isSuccess (timeout - elapsed) (n.serve o).2 = true) :
      Succeeds timeout redirects n elapsed o
  | later {redirects elapsed delay : Nat} {n : Network} {o next : Outbound}
      (followed : next? n.resolver (timeout - elapsed) o (n.serve o).2 = some (delay, next))
      (success : Succeeds timeout redirects (n.serve o).1 (elapsed + delay) next) :
      Succeeds timeout (redirects + 1) n elapsed o

theorem succeeds_iff_of_stay (h : next? n.resolver (timeout - elapsed) o (n.serve o).2 = none) :
    Succeeds timeout redirects n elapsed o ↔
      isSuccess (timeout - elapsed) (n.serve o).2 = true := by
  constructor
  · rintro (hsuccess | ⟨hnext, -⟩)
    · exact hsuccess
    · cases h.symm.trans hnext
  · exact .atOnce

theorem succeeds_iff_of_next
    (h : next? n.resolver (timeout - elapsed) o (n.serve o).2 = some (delay, next)) :
    Succeeds timeout (redirects + 1) n elapsed o ↔
      Succeeds timeout redirects (n.serve o).1 (elapsed + delay) next := by
  constructor
  · rintro (hsuccess | ⟨hnext, hlater⟩)
    · cases (isSuccess_of_next h).symm.trans hsuccess
    · cases h.symm.trans hnext
      exact hlater
  · exact .later h

/-- A probe finds an instance healthy just when its request leads to a success. -/
theorem isHealthy_travel_iff (timeout redirects : Nat) (n : Network) (elapsed : Nat)
    (o : Outbound) :
    (HttpProbe.verdict (travel timeout redirects n elapsed o).result).isHealthy = true ↔
      Succeeds timeout redirects n elapsed o := by
  -- along the redirections, of which each answer takes one or none
  induction redirects generalizing n elapsed o with
  | zero =>
    cases hnext : next? n.resolver (timeout - elapsed) o (n.serve o).2 with
    | none => rw [result_of_stay hnext, isHealthy_outcome, succeeds_iff_of_stay hnext]
    | some p =>
      rw [(result_of_next hnext).1, not_isHealthy_error]
      refine ⟨nofun, fun h => ?_⟩
      cases h with
      | atOnce success => cases (isSuccess_of_next hnext).symm.trans success
  | succ redirects ih =>
    cases hnext : next? n.resolver (timeout - elapsed) o (n.serve o).2 with
    | none => rw [result_of_stay hnext, isHealthy_outcome, succeeds_iff_of_stay hnext]
    | some p => rw [(result_of_next hnext).2, ih, succeeds_iff_of_next hnext]

end Client

namespace HttpProbe

variable {h : HttpProbe} {i : Instance}

/-! ### Probes -/

/-- The request of a probe. -/
def request (url : Url) : Outbound := ⟨"GET", url, Client.dress url [], []⟩

/-- An instance is asked at its own host and port, and nobody's name is given. -/
theorem exists_url {w : Resolver} {host : List Char} (hpath : h.path.toList.head? = some '/')
    (hhost : Http.Host.parse? w.names i.address.toList = some host) :
    ∃ url, Url.parse? w.names (i.baseUrl ++ h.path) = some url ∧ url.host = String.ofList host ∧
      url.port = i.port.toNat ∧
      Client.outbound? w "GET" (i.baseUrl ++ h.path) [] [] =
        if w.admits url then some (request url) else none := by
  obtain ⟨more, hmore⟩ := List.head?_eq_some_iff.1 hpath
  have htext : i.baseUrl ++ h.path = String.ofList (Url.schemeChars ++
      ((i.address.toList ++ ':' :: Numeric.natDigits i.port.toNat) ++ '/' :: more)) := by
    rw [← String.toList_inj]
    simp [baseUrl_eq, authority_toList, hmore]
  have hurl := htext ▸ Url.parse?_host hhost (Nat.le_of_lt_succ i.port.toNat_lt)
  refine ⟨_, hurl, rfl, rfl, ?_⟩
  rw [Client.outbound?, Resolver.url?, hurl, Option.filter_some, apply_ite (Option.map _)]
  rfl

/-- A probe does not change how texts are read. -/
theorem resolver_probe (h : HttpProbe) (n : Network) (i : Instance) :
    (h.probe n i).1.network.resolver = n.resolver := by
  rw [probe, Client.send]
  split
  · rfl
  · exact Client.resolver_travel _ _ _ _ _

/-- What a pass finds of an instance a probe has found. -/
theorem exists_probe_of_pass (h : HttpProbe) (n : Network) (q : Pass) (listing : List Instance) :
    ∀ p ∈ (h.pass n q listing).2.1.probed, p ∈ q.probed ∨
      ∃ n' : Network, n'.resolver = n.resolver ∧ p.verdict = (h.probe n' p.copy).2 := by
  induction listing generalizing n q with
  | nil => exact fun p hp => .inl hp
  | cons i rest ih =>
    intro p hp
    have hpass : (h.pass n q (i :: rest)).2.1.probed =
        (h.pass (h.probe n i).1.network
          (q.add i (h.probe n i).2 (h.probe n i).1.elapsed) rest).2.1.probed := by
      rw [pass]
    rw [hpass] at hp
    rcases ih _ _ p hp with hp | ⟨n', hresolver, hverdict⟩
    · rw [Pass.add] at hp
      rcases List.mem_append.1 hp with hp | hp
      · exact .inl hp
      · refine .inr ⟨n, rfl, ?_⟩
        rw [List.mem_singleton.1 hp]
    · exact .inr ⟨n', hresolver.trans (h.resolver_probe n i), hverdict⟩

/-- An instance is found healthy just when the request to its own host and port leads to a success
in time. As long as its own answer is not followed this is to say that that is a success, and
nothing else on the network plays a part; when it is followed the instance is judged by its own
answer just when there is no success at the end of the journey. -/
theorem judges_own_answer_iff {w : Resolver} {host : List Char}
    (hpath : h.path.toList.head? = some '/')
    (hhost : Http.Host.parse? w.names i.address.toList = some host) :
    ∃ url, Url.parse? w.names (i.baseUrl ++ h.path) = some url ∧
      url.host = String.ofList host ∧ url.port = i.port.toNat ∧
      let o := request url
      (w.admits url = true →
        (∀ n : Network, n.resolver = w →
          let own := (n.serve o).2
          let j := (h.probe n i).1
          let v := (h.probe n i).2
          (j.requests.head? = if h.timeout = 0 then none else own.map fun _ => o) ∧
          (v.isHealthy = true ↔ Client.Succeeds h.timeout Client.maxRedirects n 0 o) ∧
          (Client.next? w h.timeout o own = none →
            v = verdict (Client.outcome w h.timeout o own)) ∧
          (v.isHealthy = Client.isSuccess h.timeout own ↔
            ∀ delay next, Client.next? w h.timeout o own = some (delay, next) →
              ¬ Client.Succeeds h.timeout (Client.maxRedirects - 1) (n.serve o).1 delay next)) ∧
        ∀ n n' : Network, n.resolver = w → n'.resolver = w → (n.serve o).2 = (n'.serve o).2 →
          Client.next? w h.timeout o (n.serve o).2 = none →
          (h.probe n i).2 = (h.probe n' i).2) ∧
      -- a URL that no request can be made for
      (w.admits url = false → ∀ n : Network, n.resolver = w →
        h.probe n i = (⟨n, [], 0, .error .failed⟩, .unhealthy TransportFault.undescribed)) ∧
      ∀ n : Network, n.resolver = w → ∀ listing, ∀ p ∈ (h.pass n {} listing).2.1.probed,
        p.copy = i → ∃ n' : Network, n'.resolver = w ∧ p.verdict = (h.probe n' i).2 := by
  obtain ⟨url, hurl, hname, hport, hout⟩ := exists_url hpath hhost
  refine ⟨url, hurl, hname, hport, ?_⟩
  intro o
  refine ⟨fun hadmits => ?_, fun hrefused n hw => ?_, fun n hw listing p hp hcopy => ?_⟩
  · rw [if_pos hadmits] at hout
    have hprobe (n : Network) (hw : n.resolver = w) : h.probe n i =
        (Client.travel h.timeout Client.maxRedirects n 0 o,
          verdict (Client.travel h.timeout Client.maxRedirects n 0 o).result) := by
      rw [probe, Client.send_of_outbound h.timeout (hw.symm ▸ hout)]
    have hstay (n : Network) (hw : n.resolver = w)
        (hnone : Client.next? w h.timeout o (n.serve o).2 = none) :
        (h.probe n i).2 = verdict (Client.outcome w h.timeout o (n.serve o).2) := by
      subst hw
      rw [hprobe n rfl, Client.result_of_stay (by rwa [Nat.sub_zero]), Nat.sub_zero]
    have hhealthy (n : Network) (hw : n.resolver = w) : (h.probe n i).2.isHealthy = true ↔
        Client.Succeeds h.timeout Client.maxRedirects n 0 o := by
      rw [hprobe n hw]
      exact Client.isHealthy_travel_iff _ _ _ _ _
    refine ⟨fun n hw => ⟨?_, hhealthy n hw, hstay n hw, ?_⟩, fun n n' hw hw' hsame hnone => ?_⟩
    · rw [hprobe n hw, Client.head?_requests_travel]
      simp only [Nat.le_zero]
    · cases hnext : Client.next? w h.timeout o (n.serve o).2 with
      | none =>
        rw [hstay n hw hnext, Client.isHealthy_outcome]
        exact iff_of_true rfl nofun
      | some p =>
        obtain ⟨delay, next⟩ := p
        have hlater : Client.Succeeds h.timeout Client.maxRedirects n 0 o ↔
            Client.Succeeds h.timeout (Client.maxRedirects - 1) (n.serve o).1 (0 + delay) next :=
          Client.succeeds_iff_of_next (hw.symm ▸ hnext)
        rw [Nat.zero_add] at hlater
        rw [Client.isSuccess_of_next hnext, ← Bool.not_eq_true, hhealthy n hw, hlater]
        constructor
        · rintro hnot _ _ ⟨⟩
          exact hnot
        · exact fun hnot => hnot delay next rfl
    · rw [hstay n hw hnone, hstay n' hw' (hsame ▸ hnone), hsame]
  · rw [if_neg (by rw [hrefused]; nofun)] at hout
    rw [probe, Client.send_of_no_outbound h.timeout (hw.symm ▸ hout)]
    rfl
  · rcases h.exists_probe_of_pass n {} listing p hp with hp | ⟨n', hresolver, hn'⟩
    · exact absurd hp List.not_mem_nil
    · exact ⟨n', hresolver.trans hw, hcopy ▸ hn'⟩

/-- An address that has one answer, to the path `/health`. -/
def answering (n : Network) (host : String) (a : Answer) : Network :=
  n.install host (Keyed.ofList [("/health", [a])])

/-- An instance that is not available is found unhealthy, whoever else answers with a success. -/
theorem judges_own_answer_unavailable :
    let h : HttpProbe := ⟨"/health", 5000⟩
    let own := Answer.reply 20 503 [] [] .complete
    let n := answering {} "10.0.0.1:9000" own
    let n' := answering n "10.0.0.2:9000" (.reply 0 200 [] [] .complete)
    (h.probe n Api.soleInstance).2 = .unhealthy "status 503 Service Unavailable" ∧
      (h.probe n' Api.soleInstance).2 = .unhealthy "status 503 Service Unavailable" := by
  intro h own n n'
  have hhost : Http.Host.parse? Resolver.plain.names Api.soleInstance.address.toList =
      some "10.0.0.1".toList := by
    decide +kernel
  have hparsed : Url.parse? Resolver.plain.names (Api.soleInstance.baseUrl ++ h.path) =
      some { host := "10.0.0.1", port := 9000, path := "/health" } := by
    decide +kernel
  obtain ⟨url, hurl, -, -, hjudges, -, -⟩ :=
    judges_own_answer_iff (h := h) (i := Api.soleInstance) (by decide +kernel) hhost
  cases hparsed.symm.trans hurl
  obtain ⟨hjudges, hsame⟩ := hjudges rfl
  obtain ⟨-, -, hstay, -⟩ := hjudges n rfl
  have hverdict : (h.probe n Api.soleInstance).2 =
      .unhealthy "status 503 Service Unavailable" :=
    (hstay (by decide +kernel)).trans (by decide +kernel)
  exact ⟨hverdict,
    (hsame n n' rfl rfl (by decide +kernel) (by decide +kernel)).symm.trans hverdict⟩

/-- An instance that answers with a redirection is found healthy for the answer of another
address. -/
theorem judges_other_answer :
    let h : HttpProbe := ⟨"/health", 5000⟩
    let own :=
      Answer.reply 0 302 [("location", Api.ascii "http://10.0.0.2:9000/health")] [] .complete
    let n := answering {} "10.0.0.1:9000" own
    let n' := answering n "10.0.0.2:9000" (.reply 0 200 [] [] .complete)
    (h.probe n Api.soleInstance).2.isHealthy = false ∧
      (h.probe n' Api.soleInstance).2 = .healthy ∧
      (h.probe n' Api.soleInstance).1.requests.map (·.url.host) = ["10.0.0.1", "10.0.0.2"] := by
  decide +kernel

end HttpProbe

end Switchyard
