import Switchyard.Proofs.Gateway.Speakers
import Switchyard.Proofs.Proxy.Intake

/-! How long a forwarded request takes and what the gateway says of it. What comes of a request
is fixed by the network alone, if nobody loses patience; a client that waits for a limited time
learns it if it is known before the time is over. The gateway's own answers and its notices say
which of the two was the case. -/
namespace Switchyard

open Http (Request Headers Ending)

namespace Client

/-! ### What comes of a request -/

/-- What comes of a request to an address, after how many milliseconds, if one waits for it. -/
inductive Fate where
  | replied (after : Nat) (reply : Reply)
  | failed (after : Nat)
  /-- There will never be an answer. -/
  | silent
  /-- The target is no URL. -/
  | unsent

namespace Fate

/-- The fate of a request that goes out later. -/
def later (delay : Nat) : Fate → Fate
  | replied after reply => replied (delay + after) reply
  | failed after => failed (delay + after)
  | silent => silent
  | unsent => unsent

/-- Whether a fate is known before `timeout`. -/
def KnownBefore (timeout : Nat) : Fate → Prop
  | replied after _ | failed after => after < timeout
  | silent => False
  | unsent => True

instance (timeout : Nat) : (f : Fate) → Decidable (f.KnownBefore timeout)
  | replied after _ => inferInstanceAs (Decidable (after < timeout))
  | failed after => inferInstanceAs (Decidable (after < timeout))
  | silent => isFalse id
  | unsent => isTrue trivial

/-- The response to be passed on. -/
def reply? : Fate → Option Reply
  | replied _ reply => some reply
  | _ => none

/-- For how long one waits whose patience ends at `timeout`. -/
def waited (timeout : Nat) : Fate → Nat
  | replied after _ | failed after => min after timeout
  | silent => timeout
  | unsent => 0

/-- What one learns whose patience ends at `timeout`. -/
def outcome (timeout : Nat) (f : Fate) : Except TransportFault Reply :=
  if f.KnownBefore timeout then f.reply?.elim (.error .failed) .ok else .error .timedOut

theorem waited_le (timeout : Nat) (f : Fate) : f.waited timeout ≤ timeout := by
  cases f with
  | replied after _ => exact Nat.min_le_right after timeout
  | failed after => exact Nat.min_le_right after timeout
  | silent => exact Nat.le_refl timeout
  | unsent => exact Nat.zero_le timeout

/-- Of what goes out once the patience has ended nothing is known in time. -/
theorem outcome_later {timeout delay : Nat} {f : Fate} (hf : f ≠ .unsent)
    (hlate : timeout ≤ delay) :
    (f.later delay).waited timeout = timeout ∧
      (f.later delay).outcome timeout = .error .timedOut := by
  have hmin (after : Nat) : min (delay + after) timeout = timeout :=
    Nat.min_eq_right (Nat.le_add_right_of_le hlate)
  have hunknown (after : Nat) : ¬ delay + after < timeout :=
    Nat.not_lt.2 (Nat.le_add_right_of_le hlate)
  cases f with
  | replied after reply => exact ⟨hmin after, if_neg (hunknown after)⟩
  | failed after => exact ⟨hmin after, if_neg (hunknown after)⟩
  | silent => exact ⟨rfl, rfl⟩
  | unsent => exact absurd rfl hf

theorem later_zero (f : Fate) : f.later 0 = f := by
  cases f <;> simp [later]

theorem later_later (before delay : Nat) (f : Fate) :
    (f.later delay).later before = f.later (before + delay) := by
  cases f <;> simp [later, Nat.add_assoc]

end Fate

/-- The fate of a request that may be redirected so many times more. -/
def fate : Nat → Network → Outbound → Fate
  | redirects, n, o =>
    match n.serve o with
    | (_, none) => .failed 0
    | (_, some (.refuse delay)) => .failed delay
    | (_, some .silent) => .silent
    | (n, some (.reply delay status headers body ending)) =>
      match turn n.resolver o status headers with
      | .final => .replied delay ⟨status, headers, body, ending⟩
      | .astray => .failed delay
      | .next next =>
        match redirects with
        | 0 => .failed delay
        | redirects + 1 => (fate redirects n next).later delay

/-- The fate of a request to a target given as text. -/
def fateOf (n : Network) (method target : String) (headers : Headers) (body : Bytes) : Fate :=
  (outbound? n.resolver method target headers body).elim .unsent (fate maxRedirects n)

/-- A request that goes out to a URL has been sent. -/
theorem fate_ne_unsent (redirects : Nat) (n : Network) (o : Outbound) :
    fate redirects n o ≠ .unsent := by
  induction redirects using Nat.strongRecOn generalizing n o with
  | ind redirects ih =>
    unfold fate
    split
    · nofun
    · nofun
    · nofun
    · rename_i later delay status headers body ending _
      split
      · nofun
      · nofun
      · rename_i next _
        split
        · nofun
        · rename_i fewer
          have hnext := ih fewer (Nat.lt_succ_self fewer) later next
          cases hfate : fate fewer later next with
          | unsent => exact absurd hfate hnext
          | _ => nofun

/-- Nothing is known of a request before it is answered. -/
theorem fate_of_reply {redirects delay status : Nat} {n later : Network} {o : Outbound}
    {headers : Headers} {body : Bytes} {ending : Ending}
    (hserve : n.serve o = (later, some (.reply delay status headers body ending))) :
    ∃ rest : Fate, rest ≠ .unsent ∧ fate redirects n o = rest.later delay := by
  rw [fate, hserve]
  dsimp only
  split
  · exact ⟨.replied 0 _, nofun, rfl⟩
  · exact ⟨.failed 0, nofun, rfl⟩
  · rename_i next _
    cases redirects with
    | zero => exact ⟨.failed 0, nofun, rfl⟩
    | succ fewer => exact ⟨fate fewer later next, fate_ne_unsent fewer later next, rfl⟩

/-- A journey is as long as its fate has it, and what is learned of it is what is known by then. -/
theorem travel_eq_fate (timeout redirects : Nat) (n : Network) (elapsed : Nat) (o : Outbound) :
    let f := (fate redirects n o).later elapsed
    (travel timeout redirects n elapsed o).elapsed = f.waited timeout ∧
      (travel timeout redirects n elapsed o).result = f.outcome timeout := by
  induction redirects using Nat.strongRecOn generalizing n elapsed o with
  | ind redirects ih =>
    intro f
    by_cases hlate : timeout ≤ elapsed
    · obtain ⟨hwaited, houtcome⟩ := Fate.outcome_later (fate_ne_unsent redirects n o) hlate
      rw [travel, if_pos hlate, hwaited, houtcome]
      exact ⟨rfl, rfl⟩
    have hearly : elapsed < timeout := Nat.lt_of_not_le hlate
    obtain ⟨⟨later, answer⟩, hserve⟩ : ∃ p, n.serve o = p := ⟨_, rfl⟩
    rw [travel, if_neg hlate, hserve]
    cases answer with
    | none =>
      have hf : f = .failed elapsed := by simp only [f, fate, hserve]; rfl
      rw [hf]
      exact ⟨(Nat.min_eq_left hearly.le).symm, (if_pos hearly).symm⟩
    | some answer =>
      cases answer with
      | refuse delay =>
        have hf : f = .failed (elapsed + delay) := by simp only [f, fate, hserve]; rfl
        rw [hf]
        dsimp only
        split
        · rename_i htimeout
          exact ⟨(Nat.min_eq_right htimeout).symm, (if_neg (Nat.not_lt.2 htimeout)).symm⟩
        · rename_i hin
          rw [Nat.not_le] at hin
          exact ⟨(Nat.min_eq_left hin.le).symm, (if_pos hin).symm⟩
      | silent =>
        have hf : f = .silent := by simp only [f, fate, hserve]; rfl
        rw [hf]
        exact ⟨rfl, rfl⟩
      | reply delay status headers body ending =>
        dsimp only
        by_cases htimeout : timeout ≤ elapsed + delay
        · obtain ⟨rest, hrest, hfate⟩ : ∃ rest : Fate, rest ≠ .unsent ∧
              fate redirects n o = rest.later delay := fate_of_reply hserve
          have hf : f = rest.later (elapsed + delay) := by
            simp only [f]
            rw [hfate, Fate.later_later]
          obtain ⟨hwaited, houtcome⟩ := Fate.outcome_later hrest htimeout
          rw [if_pos htimeout, hf, hwaited, houtcome]
          exact ⟨rfl, rfl⟩
        · have hin : elapsed + delay < timeout := Nat.lt_of_not_le htimeout
          rw [if_neg htimeout]
          simp only [f]
          rw [fate, hserve]
          dsimp only
          cases turn later.resolver o status headers with
          | final => exact ⟨(Nat.min_eq_left hin.le).symm, (if_pos hin).symm⟩
          | astray => exact ⟨(Nat.min_eq_left hin.le).symm, (if_pos hin).symm⟩
          | next next =>
            cases redirects with
            | zero => exact ⟨(Nat.min_eq_left hin.le).symm, (if_pos hin).symm⟩
            | succ fewer =>
              dsimp only
              rw [Fate.later_later]
              exact ih fewer (Nat.lt_succ_self fewer) later (elapsed + delay) next

theorem send_eq_fate (n : Network) (timeout : Nat) (method target : String) (headers : Headers)
    (body : Bytes) :
    let f := fateOf n method target headers body
    (send n timeout method target headers body).elapsed = f.waited timeout ∧
      (send n timeout method target headers body).result = f.outcome timeout := by
  intro f
  cases hout : outbound? n.resolver method target headers body with
  | none =>
    have hf : f = .unsent := by simp only [f, fateOf, hout]; rfl
    rw [send_of_no_outbound timeout hout, hf]
    exact ⟨rfl, rfl⟩
  | some o =>
    have hf : f = (fate maxRedirects n o).later 0 := by
      simp only [f, fateOf, hout, Option.elim_some, Fate.later_zero]
    rw [send_of_outbound timeout hout, hf]
    exact travel_eq_fate timeout maxRedirects n 0 o

end Client

/-! ### Until the response -/

theorem Gateway.elapsed_sleep (g : Gateway) (millis : Nat) :
    (g.sleep millis).elapsed = g.elapsed + millis :=
  Nat.max_eq_right (Nat.le_add_right g.elapsed millis)

namespace Api

open Gateway (Adds backstage)

variable {g : Gateway} {service path target : String} {r : Request} {patience : Option Nat}
  {body : Bytes} {i : Instance} {n : Nat} {j : Journey}

/-- For how long a caller stays of a time: to its end, unless the caller leaves before. -/
def stayed (patience : Option Nat) (millis : Nat) : Nat :=
  if patience.any (· < millis) then patience.getD 0 else millis

theorem stayed_le (patience : Option Nat) (millis : Nat) : stayed patience millis ≤ millis := by
  unfold stayed
  split
  · rename_i hleft
    cases patience with
    | none => cases hleft
    | some p =>
      have hp : p < millis := of_decide_eq_true hleft
      exact Nat.le_of_lt hp
  · exact Nat.le_refl millis

/-- What is said of a request on its way to an instance. -/
def openingNotices (g : Gateway) (service target : String) (i : Instance) (r : Request) :
    List Notice :=
  [.selected service i.id g.proxy.balancer.strategy.label, .forwarding service i.id r.method target]

/-- What the proxy says at the end of a journey. -/
def closingNotices (service target : String) (i : Instance) (j : Journey)
    (patience : Option Nat) : List Notice :=
  if patience.any (· < j.elapsed) then [.forwardCancelled service]
  else
    match j.result with
    | .ok _ => []
    | .error _ => [.forwardFailed service i.id target TransportFault.undescribed]

/-- A journey takes its time, or as long as the caller waits, and meanwhile only the parts in the
background are heard. -/
theorem settleExchange_ends {begun : Nat}
    (hwait : g.proxy.exchanges[n]? = some { service, begun, stage := .waiting ⟨i⟩ }) :
    let s := settleExchange g n ⟨i⟩ target j patience
    s.1.elapsed = g.elapsed + stayed patience j.elapsed ∧
    ∃ during, Notice.From backstage during ∧
      s.1.log = (closingNotices service target i j patience).reverse ++ during.reverse ++ g.log := by
  have hsleep (millis : Nat) : (g.sleep millis).proxy.exchanges[n]? =
      some { service, begun, stage := .waiting ⟨i⟩ } := by
    rw [Gateway.sleep_proxy, hwait]
  unfold settleExchange closingNotices stayed
  dsimp only
  split
  · obtain ⟨during, hlog, hfrom⟩ := g.adds_sleep (patience.getD 0)
    refine ⟨g.elapsed_sleep _, during, hfrom, ?_⟩
    simp [Proxy.cancel, hsleep, Gateway.say, hlog]
  · obtain ⟨during, hlog, hfrom⟩ := g.adds_sleep j.elapsed
    cases j.result with
    | ok reply => exact ⟨g.elapsed_sleep _, during, hfrom, hlog⟩
    | error t =>
      refine ⟨g.elapsed_sleep _, during, hfrom, ?_⟩
      simp [hsleep, Gateway.say, hlog]

/-- The gateway that waits for a chosen instance. -/
theorem forward_settles (hbody : r.body.read g.settings.proxy.maxBodyBytes.toNat = .whole body)
    (hi : g.proxy.balancer.choose service g.draw (g.registry.healthy service) = some i)
    (patience : Option Nat) :
    let target := Target.url i path r.query
    let n := g.proxy.exchanges.length
    ∃ waits : Gateway,
      forward g service path r patience = settleExchange waits n ⟨i⟩ target
        (Proxy.dispatch g.network g.settings.proxyTimeout i path r body) patience ∧
      waits.elapsed = g.elapsed ∧
      waits.proxy.exchanges[n]? = some { service, begun := g.nanos, stage := .waiting ⟨i⟩ } ∧
      waits.log = (openingNotices g service target i r).reverse ++ g.log := by
  have he : (g.proxy.start service g.nanos).1.exchanges[g.proxy.exchanges.length]? =
      some { service, begun := g.nanos } := List.getElem?_concat_length
  obtain ⟨hstate, hanswer⟩ := @Proxy.engage_of_some _ _ g.nanos _ _ _ _ he rfl hi
  have hnotices := @Proxy.notices_engage_of_some _ _ g.nanos _ _ _ _ he rfl hi
  intro target n
  rw [forward_of_whole hbody]
  dsimp only
  rw [hanswer, hstate, hnotices]
  refine ⟨_, rfl, rfl, ?_, rfl⟩
  have hn : n < (g.proxy.start service g.nanos).1.exchanges.length :=
    (List.getElem?_eq_some_iff.1 he).1
  exact List.getElem?_set_self hn

/-- A request for a chosen instance from its beginning to its end. -/
theorem forward_ends (hbody : r.body.read g.settings.proxy.maxBodyBytes.toNat = .whole body)
    (hi : g.proxy.balancer.choose service g.draw (g.registry.healthy service) = some i)
    (patience : Option Nat) :
    let target := Target.url i path r.query
    let j := Proxy.dispatch g.network g.settings.proxyTimeout i path r body
    let s := forward g service path r patience
    s.1.elapsed = g.elapsed + stayed patience j.elapsed ∧
    ∃ during, Notice.From backstage during ∧
      s.1.log = (openingNotices g service target i r ++ during ++
        closingNotices service target i j patience).reverse ++ g.log := by
  intro target j s
  obtain ⟨waits, hforward, helapsed, hwait, hlog⟩ :=
    @forward_settles g service path r body i hbody hi patience
  obtain ⟨hends, during, hfrom, hsaid⟩ := settleExchange_ends hwait
  simp only [s]
  rw [hforward]
  refine ⟨hends.trans (by rw [helapsed]), during, hfrom, hsaid.trans ?_⟩
  rw [hlog]
  simp [target, j]

/-- Errors are told of only at the end of a request to an instance, and nowhere that there is
none. -/
theorem filter_said {during : List Notice} (hfrom : Notice.From backstage during)
    (patience : Option Nat) :
    let closing := closingNotices service target i j patience
    let said := openingNotices g service target i r ++ during ++ closing
    said.filter (·.level = .error) = closing.filter (·.level = .error) ∧
      said.filter (·.message = "No healthy instance available") = [] := by
  intro closing said
  have hclosing : closing.filter (·.message = "No healthy instance available") = [] := by
    simp only [closing, closingNotices]
    split
    · rfl
    · cases j.result <;> rfl
  constructor
  · exact Gateway.filter_during hfrom
      (fun n hn => Notice.speaker_of_error (of_decide_eq_true hn)) _ _
  · exact (Gateway.filter_during hfrom
      (fun n hn => Notice.speaker_of_noneHealthy (of_decide_eq_true hn)) _ _).trans hclosing

/-- The gateway's own answer to a request. -/
def ownAnswer (status : Nat) (text : String) : Http.Response :=
  .json status (.obj [("error", .str text)])

variable {timeout : Nat} {f : Client.Fate}

/-- What a caller gets and what the proxy says, by the fate of the request. -/
theorem arrival_cases (helapsed : j.elapsed = f.waited timeout)
    (hresult : j.result = f.outcome timeout) (service target : String) (i : Instance) (n : Nat)
    (patience : Option Nat) :
    let left := patience.any (· < f.waited timeout)
    let failed := [Notice.forwardFailed service i.id target TransportFault.undescribed]
    (left = true ∧ arrival i n j patience = ⟨none, j.requests, none⟩ ∧
      closingNotices service target i j patience = [.forwardCancelled service]) ∨
    (left = false ∧ ¬ f.KnownBefore timeout ∧
      arrival i n j patience =
        ⟨some (ownAnswer 504 "Service request timed out"), j.requests, none⟩ ∧
      closingNotices service target i j patience = failed) ∨
    (left = false ∧ f.KnownBefore timeout ∧ f.reply? = none ∧
      arrival i n j patience = ⟨some (ownAnswer 502 "Service request failed"), j.requests, none⟩ ∧
      closingNotices service target i j patience = failed) ∨
    (left = false ∧ f.KnownBefore timeout ∧ ∃ reply, f.reply? = some reply ∧
      arrival i n j patience = ⟨some (Proxy.response reply), j.requests, some n⟩ ∧
      closingNotices service target i j patience = []) := by
  intro left failed
  unfold arrival closingNotices
  rw [helapsed, hresult, Client.Fate.outcome]
  cases hleft : patience.any (· < f.waited timeout) with
  | true => exact .inl ⟨hleft, rfl, rfl⟩
  | false =>
    refine .inr ?_
    by_cases hknown : f.KnownBefore timeout
    · refine .inr ?_
      rw [if_pos hknown]
      cases hreply : f.reply? with
      | none => exact .inl ⟨hleft, hknown, rfl, rfl, rfl⟩
      | some reply => exact .inr ⟨hleft, hknown, reply, rfl, rfl, rfl⟩
    · rw [if_neg hknown]
      exact .inl ⟨hleft, hknown, rfl, rfl⟩

/-- A request that goes to an instance is answered within the timeout. The answer is the gateway's
own just when no response is known by then, and says whether that is for lack of time; the log says
the same. -/
theorem answers_in_time (g : Gateway) (service path : String) (r : Request)
    (patience : Option Nat) (body : Bytes)
    (hbody : r.body.read g.settings.proxy.maxBodyBytes.toNat = .whole body) :
    let timeout := g.settings.proxyTimeout
    let choice := g.proxy.balancer.choose service g.draw (g.registry.healthy service)
    let s := forward g service path r patience
    ∃ said : List Notice, s.1.log = said.reverse ++ g.log ∧
      (choice = none → s.1.elapsed = g.elapsed ∧
        s.2 = ⟨some (ownAnswer 503 "Service not available"), [], none⟩ ∧
        said = [.noneHealthy service]) ∧
      ∀ i, choice = some i →
        let target := Target.url i path r.query
        let f := Client.fateOf g.network r.method target (Proxy.forwardable r.headers) body
        let errors := said.filter (·.level = .error)
        s.1.elapsed ≤ g.elapsed + timeout ∧
        said.filter (·.message = "No healthy instance available") = [] ∧
        -- the caller leaves first
        (s.2.response = none ↔ patience.any (· < f.waited timeout) = true) ∧
        (s.2.response = none → errors = []) ∧
        ∀ x, s.2.response = some x →
          s.1.elapsed = g.elapsed + f.waited timeout ∧
          (s.2.exchange = none ∧ x = ownAnswer 504 "Service request timed out" ↔
            ¬ f.KnownBefore timeout) ∧
          (s.2.exchange = none ∧ x = ownAnswer 502 "Service request failed" ↔
            f.KnownBefore timeout ∧ f.reply? = none) ∧
          (s.2.exchange.isSome = true ↔ f.KnownBefore timeout ∧ f.reply?.isSome = true) ∧
          (∀ reply, f.reply? = some reply → s.2.exchange.isSome = true →
            x = Proxy.response reply) ∧
          errors = if s.2.exchange.isSome then []
            else [.forwardFailed service i.id target TransportFault.undescribed] := by
  intro timeout choice s
  cases hi : choice with
  | none =>
    have hs : s = _ := forward_of_unavailable hbody hi
    refine ⟨[.noneHealthy service], by rw [hs]; rfl, fun _ => ?_, nofun⟩
    rw [hs]
    exact ⟨rfl, rfl, rfl⟩
  | some i =>
    obtain ⟨hends, during, hfrom, hlog⟩ := @forward_ends g service path r body i hbody hi patience
    refine ⟨_, hlog, nofun, ?_⟩
    rintro i' ⟨⟩
    intro target f errors
    let j := Proxy.dispatch g.network timeout i path r body
    obtain ⟨helapsed, hresult⟩ : j.elapsed = f.waited timeout ∧ j.result = f.outcome timeout :=
      Client.send_eq_fate g.network timeout r.method target (Proxy.forwardable r.headers) body
    have hs : s.2 = arrival i g.proxy.exchanges.length j patience :=
      forward_of_chosen hbody hi patience
    obtain ⟨hfiltered, hhealthy⟩ := @filter_said g service target r i j during hfrom patience
    have herrors :
        errors = (closingNotices service target i j patience).filter (·.level = .error) :=
      hfiltered
    have hends : s.1.elapsed = g.elapsed + stayed patience (f.waited timeout) := by
      rw [← helapsed]
      exact hends
    have hbound : s.1.elapsed ≤ g.elapsed + timeout := by
      rw [hends]
      exact Nat.add_le_add_left
        (Nat.le_trans (stayed_le patience _) (f.waited_le timeout)) g.elapsed
    have hdiffer : ownAnswer 504 "Service request timed out" ≠
        ownAnswer 502 "Service request failed" := fun h => by cases congrArg (·.status) h
    rcases arrival_cases helapsed hresult service target i g.proxy.exchanges.length patience with
      ⟨hleft, harrival, hclosing⟩ | ⟨hleft, hunknown, harrival, hclosing⟩ |
      ⟨hleft, hknown, hreply, harrival, hclosing⟩ |
      ⟨hleft, hknown, reply, hreply, harrival, hclosing⟩
    all_goals
      rw [hclosing] at herrors
      rw [stayed, hleft] at hends
      rw [hs, harrival]
    · exact ⟨hbound, hhealthy, iff_of_true rfl hleft, fun _ => herrors, nofun⟩
    all_goals
      refine ⟨hbound, hhealthy, iff_of_false nofun (by rw [hleft]; nofun), nofun, ?_⟩
      rintro x ⟨⟩
    · exact ⟨hends, iff_of_true ⟨rfl, rfl⟩ hunknown,
        iff_of_false (fun h => hdiffer h.2) fun h => hunknown h.1,
        iff_of_false nofun fun h => hunknown h.1, nofun, herrors⟩
    · exact ⟨hends, iff_of_false (fun h => hdiffer h.2.symm) (not_not_intro hknown),
        iff_of_true ⟨rfl, rfl⟩ ⟨hknown, hreply⟩,
        iff_of_false nofun (by rw [hreply]; nofun), nofun, herrors⟩
    · refine ⟨hends, iff_of_false (fun h => ?_) (not_not_intro hknown),
        iff_of_false (fun h => ?_) fun h => ?_, iff_of_true rfl ⟨hknown, ?_⟩, fun reply' h _ => ?_,
        herrors⟩
      · cases h.1
      · cases h.1
      · cases hreply.symm.trans h.2
      · rw [hreply]
        rfl
      · cases hreply.symm.trans h
        rfl

theorem answers_in_time_silent :
    let g := soleGateway (Keyed.ofList [("/x", [.silent])])
    let s := forward g "api" "/x" soleRequest none
    s.1.elapsed = g.elapsed + g.settings.proxyTimeout ∧ s.2.exchange = none ∧
      s.2.response = some (ownAnswer 504 "Service request timed out") ∧
      s.1.log.filter (·.level = .error) =
        [.forwardFailed "api" "api-1" "http://10.0.0.1:9000/x" TransportFault.undescribed] := by
  intro g s
  obtain ⟨said, hlog, -, hchosen⟩ := answers_in_time g "api" "/x" soleRequest none [] rfl
  obtain ⟨-, -, hleft, -, hanswer⟩ := hchosen soleInstance (sole_choice _)
  have hfate : Client.fateOf g.network soleRequest.method
      (Target.url soleInstance "/x" soleRequest.query)
      (Proxy.forwardable soleRequest.headers) [] = .silent := by
    rw [Client.fateOf, show g.network.resolver = .plain from rfl, sole_outbound]
    rfl
  rw [hfate] at hleft hanswer
  cases hx : s.2.response with
  | none => cases hleft.1 hx
  | some x =>
    obtain ⟨helapsed, hlate, -, -, -, herrors⟩ := hanswer x hx
    obtain ⟨hexchange, rfl⟩ := hlate.2 id
    refine ⟨helapsed, hexchange, rfl, ?_⟩
    rw [hexchange] at herrors
    have hempty : g.log = [] := rfl
    have htarget : Target.url soleInstance "/x" soleRequest.query = "http://10.0.0.1:9000/x" := by
      decide
    rw [hlog, hempty, List.append_nil, List.filter_reverse, herrors, htarget]
    rfl

end Api

end Switchyard
