import Mathlib.Algebra.BigOperators.Group.List.Basic
import Mathlib.Algebra.Ring.Nat
import Switchyard.Proofs.Hub.Delivery

/-! The set of the hub and its gauge. Whoever leaves the set is released by one notice, on
whichever way it leaves, and lowers the gauge by one; so the gauge shows how many are in the set,
and lowering it never meets a gauge of zero. A hub that has been closed stays closed. -/
namespace Switchyard

/-! ### Notices -/

/-- By how much a notice raises the gauge. -/
def Notice.raises : Notice → Nat
  | .subscribed _ => 1
  | _ => 0

/-- By how much a notice lowers the gauge. -/
def Notice.lowers : Notice → Nat
  | .unsubscribed _ => 1
  | .hubClosed closed => closed
  | _ => 0

/-- Whether a notice releases a subscriber, which the end of the hub does to every member. -/
def Notice.releases (client : Nat) (member : Bool) : Notice → Bool
  | .unsubscribed c => c == client
  | .hubClosed _ => member
  | _ => false

def raised (notices : List Notice) : Nat := (notices.map Notice.raises).sum

def lowered (notices : List Notice) : Nat := (notices.map Notice.lowers).sum

theorem raised_append (before after : List Notice) :
    raised (before ++ after) = raised before + raised after := by
  rw [raised, List.map_append, List.sum_append]
  rfl

theorem lowered_append (before after : List Notice) :
    lowered (before ++ after) = lowered before + lowered after := by
  rw [lowered, List.map_append, List.sum_append]
  rfl

namespace Hub

/-- Whether a number is that of a member. -/
def isMember (h : Hub) (client : Nat) : Bool := (h.member? client).isSome

theorem isMember_eq (h : Hub) (client : Nat) :
    h.isMember client = (h.subscribers[client]?).any (·.member) := by
  rw [isMember, member?]
  cases h.subscribers[client]? with
  | none => rfl
  | some s => cases hm : s.member <;> simp [hm]

theorem isMember_of_length_le (h : Hub) {client : Nat} (hle : h.subscribers.length ≤ client) :
    h.isMember client = false := by
  rw [isMember_eq, List.getElem?_eq_none hle]
  rfl

theorem isMember_subscribe (h : Hub) (ha : h.accepting = true) (services : Keyed Instance)
    (client : Nat) :
    (h.subscribe services).state.isMember client =
      (h.isMember client || decide (client = h.subscribers.length)) := by
  rw [isMember_eq, getElem?_subscribe, isMember_eq]
  by_cases heq : client = h.subscribers.length
  · simp [ha, heq]
  · simp [heq]

/-! ### Leaving -/

/-- Notices that release members and nobody else, once each, and a hub that follows them. -/
structure Releases (h h' : Hub) (notices : List Notice) : Prop where
  accepting : h'.accepting = h.accepting
  length : h'.subscribers.length = h.subscribers.length
  raised : raised notices = 0
  lowered : h'.memberCount + lowered notices = h.memberCount
  gauge : h.gauge.count = h.memberCount → h'.gauge.count = h'.memberCount
  each : ∀ client member, notices.countP (·.releases client member) +
    (h'.isMember client).toNat = (h.isMember client).toNat

namespace Releases

variable {h h' h'' : Hub} {notices more : List Notice}

theorem refl (h : Hub) : Releases h h [] :=
  ⟨rfl, rfl, rfl, rfl, fun hg => hg, fun _ _ => Nat.zero_add _⟩

/-- A notice that neither raises nor lowers the gauge. -/
theorem cons {n : Notice} (hr : Releases h h' notices) (hraises : n.raises = 0)
    (hlowers : n.lowers = 0) (hnobody : ∀ client member, n.releases client member = false) :
    Releases h h' (n :: notices) where
  accepting := hr.accepting
  length := hr.length
  raised := by
    rw [Switchyard.raised, List.map_cons, List.sum_cons, hraises, Nat.zero_add]
    exact hr.raised
  lowered := by
    rw [Switchyard.lowered, List.map_cons, List.sum_cons, hlowers, Nat.zero_add]
    exact hr.lowered
  gauge := hr.gauge
  each client member := by
    rw [List.countP_cons_of_neg (by rw [hnobody]; nofun)]
    exact hr.each client member

theorem trans (hr : Releases h h' notices) (hr' : Releases h' h'' more) :
    Releases h h'' (notices ++ more) where
  accepting := hr'.accepting.trans hr.accepting
  length := hr'.length.trans hr.length
  raised := by rw [raised_append, hr.raised, hr'.raised]
  lowered := by
    have := hr.lowered
    have := hr'.lowered
    rw [lowered_append]
    omega
  gauge hg := hr'.gauge (hr.gauge hg)
  each client member := by
    have := hr.each client member
    have := hr'.each client member
    rw [List.countP_append]
    omega

end Releases

variable (h : Hub)

theorem isMember_update (c client : Nat) (f : Subscriber → Subscriber) :
    (h.update c f).isMember client =
      if c = client then (h.subscribers[client]?).any fun s => (f s).member
      else h.isMember client := by
  rw [isMember_eq, getElem?_update, isMember_eq]
  split
  · rw [Option.any_map]
  · rfl

/-- What changes the queue of a subscriber changes nothing about the set. -/
theorem releases_update (c : Nat) {f : Subscriber → Subscriber}
    (hf : ∀ s, (f s).member = s.member) : Releases h (h.update c f) [] := by
  have hmembers : (h.update c f).memberCount = h.memberCount := by
    have hlist : (h.update c f).subscribers.map (·.member) = h.subscribers.map (·.member) := by
      apply List.ext_getElem?
      intro i
      rw [List.getElem?_map, List.getElem?_map, getElem?_update]
      split
      · cases h.subscribers[i]? with
        | none => rfl
        | some s => exact congrArg some (hf s)
      · rfl
    have hcount (l : List Subscriber) : l.countP (·.member) = (l.map (·.member)).countP id := by
      rw [List.countP_map]
      rfl
    rw [memberCount, memberCount, hcount, hcount, hlist]
  refine ⟨rfl, List.length_modify .., rfl, hmembers, fun hg => hg.trans hmembers.symm,
    fun client member => ?_⟩
  rw [List.countP_nil, Nat.zero_add, isMember_update]
  split
  · simp only [hf, isMember_eq]
  · rfl

theorem memberCount_leave {c : Nat} {s : Subscriber} (hs : h.member? c = some s) :
    (h.update c fun s => { s with member := false }).memberCount + 1 = h.memberCount := by
  obtain ⟨hget, hm⟩ := (member?_eq_some_iff h c).1 hs
  obtain ⟨hlt, hget⟩ := List.getElem?_eq_some_iff.1 hget
  have hpos : 0 < h.subscribers.countP (·.member) :=
    List.countP_pos_iff.2 ⟨s, hget ▸ List.getElem_mem hlt, hm⟩
  rw [memberCount, memberCount, update, List.modify_eq_set, List.getElem?_eq_getElem hlt, hget]
  simp only [Option.getD_some, List.countP_set hlt, hget, hm, if_true]
  simp
  omega

theorem releases_unsubscribe (c : Nat) :
    Releases h (h.unsubscribe c).state (h.unsubscribe c).notices := by
  unfold unsubscribe
  split
  · rename_i s hs
    have hcount := h.memberCount_leave hs
    refine ⟨rfl, List.length_modify .., rfl, hcount, fun hg => ?_, fun client member => ?_⟩
    · have hlower : (h.gauge.lower).count = h.gauge.count - 1 := rfl
      have hleft : Hub.memberCount { (h.update c fun s => { s with member := false }) with
          gauge := h.gauge.lower } =
        (h.update c fun s => { s with member := false }).memberCount := rfl
      rw [hleft]
      dsimp only
      omega
    · have hafter : Hub.isMember { (h.update c fun s => { s with member := false }) with
          gauge := h.gauge.lower } client =
        if c = client then false else h.isMember client := by
        refine (h.isMember_update c client fun s => { s with member := false }).trans ?_
        split
        · cases h.subscribers[client]? <;> rfl
        · rfl
      rw [hafter]
      by_cases heq : c = client
      · subst heq
        simp [Notice.releases, isMember, hs]
      · simp [Notice.releases, heq]
  · exact .refl h

theorem releases_push (c : Nat) (text : String) :
    Releases h (h.push c text).state (h.push c text).notices := by
  unfold push
  split
  · exact .refl h
  · split
    · exact (h.releases_unsubscribe c).cons rfl rfl fun _ _ => rfl
    · exact h.releases_update c fun _ => rfl

theorem releases_pushAll (text : String) (clients : List Nat) :
    Releases h (h.pushAll text clients).state (h.pushAll text clients).notices := by
  induction clients generalizing h with
  | nil => exact .refl h
  | cons c rest ih => exact (h.releases_push c text).trans (ih _)

theorem releases_handle (now : Instant) (services : Keyed Instance) (c : Nat) (text : String) :
    Releases h (h.handle now services c text).state (h.handle now services c text).notices := by
  unfold handle
  split
  · exact (Releases.refl h).cons rfl rfl fun _ _ => rfl
  · exact h.releases_push c _
  · exact h.releases_push c _

theorem releases_broadcast (now : Instant) (services : Keyed Instance) :
    Releases h (h.broadcast now services).state (h.broadcast now services).notices :=
  (h.releases_pushAll _ _).trans ((Releases.refl _).cons rfl rfl fun _ _ => rfl)

theorem releases_receive (c limit : Nat) : Releases h (h.receive c limit).1 [] := by
  unfold receive
  split
  · exact .refl h
  · exact h.releases_update c fun _ => rfl

theorem releases_hangUp (c : Nat) : Releases h (h.hangUp c) [] :=
  h.releases_update c fun _ => rfl

/-! ### Closed hubs -/

theorem isMember_close (client : Nat) : h.close.state.isMember client = false := by
  rw [isMember_eq, getElem?_close]
  cases h.subscribers[client]? <;> rfl

theorem count_lowerBy (g : Gauge) (n : Nat) : (lowerBy g n).count = g.count - n := by
  induction n generalizing g with
  | zero => rfl
  | succ n ih =>
    rw [lowerBy, ih]
    show g.count - 1 - n = g.count - (n + 1)
    omega

theorem memberCount_eq_zero : h.memberCount = 0 ↔ ∀ client, h.isMember client = false := by
  rw [memberCount, List.countP_eq_zero]
  constructor
  · intro hnone client
    rw [isMember_eq]
    cases hs : h.subscribers[client]? with
    | none => rfl
    | some s => exact Bool.eq_false_iff.2 (hnone s (List.mem_of_getElem? hs))
  · intro hnone s hs hm
    obtain ⟨client, hclient⟩ := List.getElem?_of_mem hs
    have hfalse := hnone client
    rw [isMember_eq, hclient, Option.any_some, hm] at hfalse
    cases hfalse

/-- A hub that takes no more and has let everybody go. -/
structure Closed (h : Hub) : Prop where
  refusing : h.accepting = false
  nobody : h.memberCount = 0
  gauge : h.gauge.count = 0

namespace Closed

variable {h : Hub}

theorem members_eq_nil (hc : h.Closed) : h.members = [] := by
  have hnone := h.memberCount_eq_zero.1 hc.nobody
  exact List.filter_eq_nil_iff.2 fun client _ hm => nomatch (hnone client).symm.trans hm

theorem subscribe_eq (hc : h.Closed) (services : Keyed Instance) :
    h.subscribe services = ⟨h, .error .shuttingDown, []⟩ := by
  rw [subscribe, if_neg (by rw [hc.refusing]; nofun)]

/-- An update finds nobody. -/
theorem broadcast_eq (hc : h.Closed) (now : Instant) (services : Keyed Instance) :
    h.broadcast now services = ⟨h, 0, [.updateSent 0]⟩ := by
  rw [broadcast, hc.members_eq_nil]
  rfl

/-- There is nobody to be let go. -/
theorem close_eq (hc : h.Closed) : h.close = ⟨h, (), [.hubClosed 0]⟩ := by
  have hout : h.subscribers.map (fun s => { s with member := false }) = h.subscribers := by
    refine (List.map_congr_left fun s hs => ?_).trans (List.map_id _)
    have hs : s.member = false := by
      simpa using List.countP_eq_zero.1 hc.nobody s hs
    exact Subscriber.leave_of_not_member hs
  have hrefusing := hc.refusing
  rw [close, hc.nobody, hout, ← hrefusing]
  rfl

end Closed

end Hub

namespace Feed

open Hub (Releases Closed)

/-! ### Runs -/

/-- The notices that a call gives of the set. -/
def told (f : Feed) (e : Instant × Call) : List Notice :=
  match e.2 with
  | .subscribe => (f.hub.subscribe f.registry.list).notices
  | .unsubscribe client => (f.hub.unsubscribe client).notices
  | .handle client text => (f.hub.handle e.1 f.registry.list client text).notices
  | .send client m => (f.hub.send client m).notices
  | .broadcast => (f.hub.broadcast e.1 f.registry.list).notices
  | .close => f.hub.close.notices
  | .change _ | .receive _ _ | .hangUp _ => []

/-- All notices of the set in a run. -/
def notices (f : Feed) (calls : List (Instant × Call)) : List Notice := observed step told f calls

/-- The notices of a run that release a subscriber: that it has left, or that the hub has been
closed while it was a member. -/
def farewells (f : Feed) (client : Nat) (calls : List (Instant × Call)) : List Notice :=
  observed step (fun f e => (f.told e).filter (·.releases client (f.hub.isMember client))) f calls

/-- What a call makes of the set and of the gauge, with the notices that it gives. -/
structure Tallies (f : Feed) (e : Instant × Call) : Prop where
  lowered : (f.step e).hub.memberCount + lowered (f.told e) =
    f.hub.memberCount + raised (f.told e)
  gauge : f.hub.gauge.count = f.hub.memberCount →
    (f.step e).hub.gauge.count = (f.step e).hub.memberCount
  accepting : f.hub.accepting = false → (f.step e).hub.accepting = false
  /-- Whoever arrives is a member, and stays one until it is released. -/
  each : ∀ client, (f.told e).countP (·.releases client (f.hub.isMember client)) +
      ((f.step e).hub.isMember client).toNat +
      (decide (client < f.hub.subscribers.length)).toNat =
    (f.hub.isMember client).toNat + (decide (client < (f.step e).hub.subscribers.length)).toNat

variable {f : Feed} {e : Instant × Call}

theorem tallies_of_releases (h : Releases f.hub (f.step e).hub (f.told e)) : f.Tallies e where
  lowered := by
    rw [h.raised]
    exact h.lowered
  gauge := h.gauge
  accepting ha := h.accepting.trans ha
  each client := by rw [h.each, h.length]

theorem tallies_subscribe (f : Feed) (now : Instant) : f.Tallies (now, .subscribe) := by
  obtain ⟨o, ho⟩ : ∃ o, f.hub.subscribe f.registry.list = o := ⟨_, rfl⟩
  have hhub : (f.step (now, .subscribe)).hub = o.state := by rw [← ho]; rfl
  have htold : f.told (now, .subscribe) = o.notices := by rw [← ho]; rfl
  cases ha : f.hub.accepting with
  | false =>
    rw [Hub.subscribe, ha, if_neg nofun] at ho
    refine tallies_of_releases ?_
    rw [hhub, htold, ← ho]
    exact .refl _
  | true =>
    rw [Hub.subscribe, ha, if_pos rfl] at ho
    have hmembers : o.state.memberCount = f.hub.memberCount + 1 := by
      rw [← ho]
      simp [Hub.memberCount]
    refine ⟨?_, fun hg => ?_, fun hr => (nomatch ha.symm.trans hr), fun client => ?_⟩
    · rw [hhub, htold, hmembers, ← ho]
      rfl
    · have hgauge : o.state.gauge.count = f.hub.gauge.count + 1 := by rw [← ho]; rfl
      rw [hhub, hmembers, hgauge, hg]
    · have hnone : o.notices.countP (·.releases client (f.hub.isMember client)) = 0 := by
        rw [← ho]
        rfl
      have hlength : o.state.subscribers.length = f.hub.subscribers.length + 1 := by
        rw [← ho]
        exact List.length_append
      have hafter : o.state.isMember client =
          (f.hub.isMember client || decide (client = f.hub.subscribers.length)) := by
        rw [← f.hub.isMember_subscribe ha f.registry.list, Hub.subscribe, ha, if_pos rfl, ho]
      rw [hhub, htold, hnone, hlength, hafter]
      rcases Nat.lt_trichotomy client f.hub.subscribers.length with hlt | rfl | hgt
      · simp [hlt, Nat.ne_of_lt hlt, Nat.lt_succ_of_lt hlt]
      · simp [f.hub.isMember_of_length_le (Nat.le_refl _)]
      · have hlt : ¬ client < f.hub.subscribers.length + 1 := by omega
        simp [f.hub.isMember_of_length_le (Nat.le_of_lt hgt), Nat.ne_of_gt hgt,
          Nat.not_lt.2 (Nat.le_of_lt hgt), hlt]

theorem tallies_close (f : Feed) (now : Instant) : f.Tallies (now, .close) := by
  have hnobody : (f.step (now, .close)).hub.memberCount = 0 :=
    (Hub.memberCount_eq_zero _).2 f.hub.isMember_close
  refine ⟨?_, fun hg => ?_, fun _ => rfl, fun client => ?_⟩
  · rw [hnobody, Nat.zero_add]
    rfl
  · have hgauge : (f.step (now, .close)).hub.gauge.count = f.hub.gauge.count - f.hub.memberCount :=
      Hub.count_lowerBy _ _
    rw [hnobody, hgauge, hg, Nat.sub_self]
  · have hlength : (f.step (now, .close)).hub.subscribers.length = f.hub.subscribers.length :=
      List.length_map _
    have hout : (f.step (now, .close)).hub.isMember client = false := f.hub.isMember_close client
    rw [hlength, hout]
    cases hm : f.hub.isMember client with
    | false => rfl
    | true => rfl

/-- What one call does to the set and to the gauge. -/
theorem tallies (f : Feed) (e : Instant × Call) : f.Tallies e := by
  obtain ⟨now, c⟩ := e
  cases c with
  | subscribe => exact f.tallies_subscribe now
  | close => exact f.tallies_close now
  | change c => exact tallies_of_releases (.refl _)
  | unsubscribe client => exact tallies_of_releases (f.hub.releases_unsubscribe client)
  | handle client text => exact tallies_of_releases (f.hub.releases_handle now _ client text)
  | send client m => exact tallies_of_releases (f.hub.releases_push client m.encode)
  | broadcast => exact tallies_of_releases (f.hub.releases_broadcast now _)
  | receive client limit => exact tallies_of_releases (f.hub.releases_receive client limit)
  | hangUp client => exact tallies_of_releases (f.hub.releases_hangUp client)

theorem run_lowered (f : Feed) (calls : List (Instant × Call)) :
    (f.run calls).hub.memberCount + lowered (f.notices calls) =
      f.hub.memberCount + raised (f.notices calls) := by
  induction calls generalizing f with
  | nil => rfl
  | cons e rest ih =>
    have hstep := (f.tallies e).lowered
    have hrest := ih (f.step e)
    rw [run_cons, notices, observed, lowered_append, raised_append]
    rw [notices] at hrest
    omega

theorem run_gauge (h : f.hub.gauge.count = f.hub.memberCount) (calls : List (Instant × Call)) :
    (f.run calls).hub.gauge.count = (f.run calls).hub.memberCount := by
  induction calls generalizing f with
  | nil => exact h
  | cons e rest ih => exact ih ((f.tallies e).gauge h)

/-- A subscriber is released by one notice if it has arrived and left, and else by none. -/
theorem run_farewells (f : Feed) (client : Nat) (calls : List (Instant × Call)) :
    (f.farewells client calls).length + ((f.run calls).hub.isMember client).toNat +
        (decide (client < f.hub.subscribers.length)).toNat =
      (f.hub.isMember client).toNat +
        (decide (client < (f.run calls).hub.subscribers.length)).toNat := by
  induction calls generalizing f with
  | nil =>
    rw [run_nil, farewells, observed, List.length_nil, Nat.zero_add]
  | cons e rest ih =>
    have hstep := (f.tallies e).each client
    have hrest := ih (f.step e)
    rw [run_cons, farewells, observed, List.length_append, ← List.countP_eq_length_filter]
    rw [farewells] at hrest
    omega

/-! ### The end -/

theorem closed_step (h : f.hub.Closed) (e : Instant × Call) : (f.step e).hub.Closed := by
  have htally := f.tallies e
  have hgauge := htally.gauge (h.gauge.trans h.nobody.symm)
  have hraised : raised (f.told e) = 0 := by
    obtain ⟨now, c⟩ := e
    cases c with
    | subscribe =>
      rw [told, h.subscribe_eq]
      rfl
    | close => rfl
    | change c => rfl
    | unsubscribe client => exact (f.hub.releases_unsubscribe client).raised
    | handle client text => exact (f.hub.releases_handle now _ client text).raised
    | send client m => exact (f.hub.releases_push client m.encode).raised
    | broadcast => exact (f.hub.releases_broadcast now _).raised
    | receive client limit => rfl
    | hangUp client => rfl
  have hnobody : (f.step e).hub.memberCount = 0 := by
    have := htally.lowered
    have := h.nobody
    omega
  exact ⟨htally.accepting h.refusing, hnobody, hgauge.trans hnobody⟩

theorem closed_run (h : f.hub.Closed) (calls : List (Instant × Call)) :
    (f.run calls).hub.Closed := by
  induction calls generalizing f with
  | nil => exact h
  | cons e rest ih => exact ih (closed_step h e)

theorem closed_of_close (h : f.hub.gauge.count = f.hub.memberCount) (now : Instant) :
    (f.step (now, .close)).hub.Closed := by
  have hnobody : (f.step (now, .close)).hub.memberCount = 0 :=
    (Hub.memberCount_eq_zero _).2 f.hub.isMember_close
  exact ⟨rfl, hnobody, ((f.tallies (now, .close)).gauge h).trans hnobody⟩

/-- A closed hub accepts nothing for anybody. -/
theorem accepted_of_closed (h : f.hub.Closed) (client : Nat) (calls : List (Instant × Call)) :
    f.accepted client calls = [] := by
  induction calls generalizing f with
  | nil => rfl
  | cons e rest ih =>
    have hout : f.hub.member? client = none := by
      have hnone : (f.hub.member? client).isSome = false :=
        (Hub.memberCount_eq_zero _).1 h.nobody client
      simpa using hnone
    have hnone : f.accepts e.1 client e.2 = [] := by
      obtain ⟨now, c⟩ := e
      cases c with
      | subscribe => exact if_neg fun ha => Bool.false_ne_true (h.refusing.symm.trans ha.1)
      | _ => simp [accepts, hout]
    rw [accepted_cons, hnone, ih (closed_step h e)]
    rfl

/-- Outside the set a queue only gets shorter. -/
theorem Fate.suffix {now : Instant} {c : Call} {client : Nat} {s s' : Subscriber}
    {a : List ServerMessage} {t : List String} (h : Fate f now c client s s' a t)
    (hm : s.member = false) : s'.queue <:+ s.queue := by
  cases h with
  | queued m sent member room => exact absurd (hm.symm.trans member) nofun
  | drained limit call => exact List.drop_suffix limit s.queue
  | hungUp call => exact List.nil_suffix
  | _ => exact List.suffix_refl _

theorem suffix_step (h : f.hub.Closed) {client : Nat} {s' : Subscriber}
    (hs' : (f.step e).hub.subscribers[client]? = some s') :
    ∃ s, f.hub.subscribers[client]? = some s ∧ s'.queue <:+ s.queue := by
  obtain ⟨now, c⟩ := e
  cases hs : f.hub.subscribers[client]? with
  | some s =>
    obtain ⟨after, hafter, hfate⟩ := fate f now client hs c
    cases hafter.symm.trans hs'
    have hout := (Hub.memberCount_eq_zero _).1 h.nobody client
    rw [Hub.isMember_eq, hs, Option.any_some] at hout
    exact ⟨s, rfl, hfate.suffix hout⟩
  | none =>
    have habsent : (f.step (now, c)).hub.subscribers[client]? = none := by
      by_cases hc : c = .subscribe
      · subst hc
        have hsame : (f.step (now, .subscribe)).hub = f.hub := by
          rw [step, h.subscribe_eq]
        rw [hsame, hs]
      · exact absent_step f now client hs hc
    cases habsent.symm.trans hs'

/-- In a closed hub nobody arrives, and nothing is queued any more. -/
theorem suffix_run (h : f.hub.Closed) {client : Nat} {s' : Subscriber}
    (calls : List (Instant × Call))
    (hs' : (f.run calls).hub.subscribers[client]? = some s') :
    ∃ s, f.hub.subscribers[client]? = some s ∧ s'.queue <:+ s.queue := by
  induction calls generalizing f with
  | nil => exact ⟨s', hs', List.suffix_refl _⟩
  | cons e rest ih =>
    obtain ⟨mid, hmid, hrest⟩ := ih (closed_step h e) hs'
    obtain ⟨s, hs, hfirst⟩ := suffix_step h hmid
    exact ⟨s, hs, hrest.trans hfirst⟩

end Feed

end Switchyard
