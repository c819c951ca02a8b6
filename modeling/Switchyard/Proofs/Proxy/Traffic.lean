import Switchyard.Proofs.Numeric.Quotient
import Switchyard.Proofs.Proxy.Request
import Switchyard.Proofs.Proxy.Visits

/-! The counts of the traffic and the visits of requests. The counts are those of the visits in
every state, and every visit is booked once when it begins and once when it is over; so no
count of requests in flight is ever lowered from zero. -/
namespace Switchyard

open Proxy (Act Closing)
open Forwarding (Call)

/-! ### The counts of visits -/

namespace Visit

variable {vs vs' : List Visit}

theorem tally_perm (h : vs.Perm vs') : tally vs = tally vs' := by
  simp only [tally, totalMillis, h.length_eq, h.countP_eq, (h.map millis).sum_nat]

theorem only_perm (h : vs.Perm vs') (service : String) :
    (only vs service).Perm (only vs' service) := h.filter _

theorem only_cons (v : Visit) (vs : List Visit) (service : String) :
    only (v :: vs) service = (if v.service = service then [v] else []) ++ only vs service := by
  rw [only, List.filter_cons]
  split <;> simp_all [only]

theorem mem_only {n : Nat} {v : Visit} (h : vs[n]? = some v) : v ∈ only vs v.service :=
  List.mem_filter.2 ⟨List.mem_of_getElem? h, decide_eq_true rfl⟩

/-- A visit that changes leaves the others as they are. -/
theorem only_set {n : Nat} {v : Visit} (h : vs[n]? = some v) (v' : Visit)
    (hs : v'.service = v.service) (service : String) :
    ∃ rest, (only vs service).Perm ((if v.service = service then [v] else []) ++ rest) ∧
      (only (vs.set n v') service).Perm ((if v.service = service then [v'] else []) ++ rest) := by
  obtain ⟨hn, rfl⟩ := List.getElem?_eq_some_iff.1 h
  refine ⟨only (vs.eraseIdx n) service, ?_, ?_⟩
  · rw [← only_cons]
    exact only_perm (List.getElem_cons_eraseIdx_perm hn).symm service
  · rw [← hs, ← only_cons]
    exact only_perm (List.set_perm_cons_eraseIdx hn v') service

/-- A visit that is not over counts as a request in flight and as nothing else. -/
theorem of_isOpen {v : Visit} (h : v.isOpen = true) :
    v.isError = false ∧ v.isDropped = false ∧ v.millis = 0 := by
  cases hp : v.progress <;> simp_all [isOpen, isError, isDropped, millis]

theorem tally_cons_of_isOpen {v : Visit} (h : v.isOpen = true) (vs : List Visit) :
    tally (v :: vs) = (tally vs).start := by
  obtain ⟨herror, hdropped, hmillis⟩ := of_isOpen h
  simp [tally, Tally.start, totalMillis, h, herror, hdropped, hmillis]

end Visit

/-- A closed request in the counts of its service. -/
def Proxy.Closing.count (nanos : Nat) : Closing → Tally → Tally
  | .answered status, t =>
    let t := t.close nanos
    if Traffic.isServerError status then { t with errors := t.errors + 1 } else t
  | .left, t =>
    let t := t.close nanos
    { t with cancelled := t.cancelled + 1 }

theorem Proxy.Closing.book_eq (c : Closing) (service : String) (nanos : Nat) (t : Traffic) :
    c.book service nanos t = t.update service (c.count nanos) := by
  cases c <;> rfl

theorem Proxy.Closing.count_requests (c : Closing) (nanos : Nat) (t : Tally) :
    (c.count nanos t).requests = t.requests := by
  cases c with
  | answered status =>
    simp only [count]
    split <;> rfl
  | left => rfl

namespace Visit

/-- With room for the visits every count is exact. -/
theorem tally_toNat {vs : List Visit} (few : vs.length < 2 ^ 64) :
    (tally vs).requests.toNat = vs.length ∧ (tally vs).errors.toNat = vs.countP isError ∧
      (tally vs).cancelled.toNat = vs.countP isDropped ∧
      (tally vs).inFlight.toNat = vs.countP isOpen := by
  have exact_ {n : Nat} (h : n ≤ vs.length) : n.toUInt64.toNat = n :=
    Nat.mod_eq_of_lt (Nat.lt_of_le_of_lt h few)
  exact ⟨exact_ (Nat.le_refl _), exact_ List.countP_le_length, exact_ List.countP_le_length,
    exact_ List.countP_le_length⟩

/-- Closing a request undoes that it is in flight, as long as there is room for it. -/
theorem close_start {vs : List Visit} (few : vs.length + 1 < 2 ^ 64) (nanos : Nat) :
    (tally vs).start.close nanos =
      { tally vs with
        requests := (tally vs).requests + 1
        millis := (tally vs).millis + (nanos / 1000000).toUInt64 } := by
  have hflight := (tally_toNat (Nat.lt_of_succ_lt few)).2.2.2
  have hle : vs.countP isOpen ≤ vs.length := List.countP_le_length
  have hroom : (tally vs).inFlight + 1 ≠ 0 := by
    intro h
    have hzero := congrArg UInt64.toNat h
    rw [UInt64.toNat_add, hflight, UInt64.toNat_one, UInt64.toNat_zero,
      Nat.mod_eq_of_lt (by omega)] at hzero
    omega
  have hback : (tally vs).inFlight + 1 - 1 = (tally vs).inFlight := by simp
  simp only [Tally.close, Tally.start, if_neg hroom, hback]

/-- A visit that is over now has been counted as a request in flight before. -/
theorem tally_cons_of_over {v : Visit} (h : v.isOpen = true) (t : Nat) (c : Closing)
    {vs : List Visit} (few : vs.length + 1 < 2 ^ 64) :
    tally ({ v with progress := .over t c } :: vs) = c.count (t - v.since) (tally (v :: vs)) := by
  have hone (n : Nat) : (n + 1).toUInt64 = n.toUInt64 + 1 := UInt64.ofNat_add n 1
  have hmillis : (totalMillis ({ v with progress := .over t c } :: vs)).toUInt64 =
      (totalMillis vs).toUInt64 + ((t - v.since) / 1000000).toUInt64 := by
    rw [totalMillis, List.map_cons, List.sum_cons, Nat.add_comm]
    exact UInt64.ofNat_add _ _
  rw [tally_cons_of_isOpen h]
  cases c with
  | answered status =>
    simp only [Proxy.Closing.count, close_start few]
    by_cases hs : Traffic.isServerError status <;>
      simp [tally, isOpen, isError, isDropped, hs, hmillis, hone, -Nat.toUInt64_eq]
  | left =>
    simp only [Proxy.Closing.count, close_start few]
    simp [tally, isOpen, isError, isDropped, hmillis, hone, List.countP_cons, -Nat.toUInt64_eq]

/-- A visit that changes is still one to the same service. -/
theorem services_set {vs : List Visit} {n : Nat} {v : Visit} (h : vs[n]? = some v) {v' : Visit}
    (hs : v'.service = v.service) : (vs.set n v').map (·.service) = vs.map (·.service) := by
  obtain ⟨hn, rfl⟩ := List.getElem?_eq_some_iff.1 h
  rw [List.map_set, hs, ← List.getElem_map (fun v : Visit => v.service), List.set_getElem_self]
  rwa [List.length_map]

theorem only_ne_nil {vs : List Visit} {service : String} :
    only vs service ≠ [] ↔ service ∈ vs.map (·.service) := by
  simp [only, List.filter_eq_nil_iff]

theorem length_only_le (vs : List Visit) (service : String) :
    (only vs service).length ≤ vs.length := List.length_filter_le _ _

end Visit

namespace Traffic

theorem tally_update (t : Traffic) (service : String) (f : Tally → Tally) (other : String) :
    (t.update service f).tally other =
      if other = service then f (t.tally service) else t.tally other := by
  simp only [tally, update, Keyed.getD, Keyed.get?_insert]
  split <;> rfl

theorem contains_update (t : Traffic) (service : String) (f : Tally → Tally) (other : String) :
    (t.update service f).services.contains other =
      (decide (other = service) || t.services.contains other) := by
  simp only [update, Keyed.contains, Keyed.get?_insert]
  split <;> simp_all

theorem sum_update (t : Traffic) (service : String) (f : Tally → Tally) :
    (t.update service f).services.sum (·.requests.toNat) + (t.tally service).requests.toNat =
      t.services.sum (·.requests.toNat) + (f (t.tally service)).requests.toNat := by
  have h := t.services.sum_insert (·.requests.toNat) service (f (t.tally service))
  have hold : ((t.services.get? service).map (·.requests.toNat)).getD 0 =
      (t.tally service).requests.toNat := by
    rw [tally, Keyed.getD]
    cases t.services.get? service <;> rfl
  rwa [hold] at h

end Traffic

/-! ### The counts of the traffic -/

namespace Journal

variable {j : Journal}

/-- The traffic is that of the visits. -/
structure Tallied (j : Journal) : Prop where
  tally : ∀ service, j.traffic.tally service = Visit.tally (Visit.only j.visits service)
  shown : ∀ service, j.traffic.services.contains service = true ↔
    service ∈ j.visits.map (·.service)
  total : j.traffic.total = j.visits.length
  sum : j.traffic.services.sum (·.requests.toNat) = j.visits.length

theorem tallied_start (threshold : UInt32) (strategy : Strategy) :
    Tallied (start threshold strategy) where
  tally _ := rfl
  shown _ := ⟨nofun, nofun⟩
  total := rfl
  sum := rfl

theorem Tallied.requests (h : Tallied j) (few : j.visits.length < 2 ^ 64) (service : String) :
    (j.traffic.tally service).requests.toNat = (Visit.only j.visits service).length := by
  rw [h.tally]
  exact (Visit.tally_toNat (Nat.lt_of_le_of_lt (Visit.length_only_le _ _) few)).1

/-- The counts of one service change, and the visits to it with them. -/
theorem Tallied.update (h : Tallied j) {j' : Journal} (service : String) (f : Tally → Tally)
    (hservices : j'.traffic.services = (j.traffic.update service f).services)
    (htally : ∀ other, Visit.tally (Visit.only j'.visits other) =
      if other = service then f (Visit.tally (Visit.only j.visits other))
      else Visit.tally (Visit.only j.visits other))
    (hshown : ∀ other, other ∈ j'.visits.map (·.service) ↔
      other = service ∨ other ∈ j.visits.map (·.service))
    (htotal : j'.traffic.total = j'.visits.length)
    (hmore : j'.visits.length + (j.traffic.tally service).requests.toNat =
      j.visits.length + (f (j.traffic.tally service)).requests.toNat) : Tallied j' := by
  have heq (other : String) : j'.traffic.tally other =
      if other = service then f (j.traffic.tally service) else j.traffic.tally other := by
    rw [← Traffic.tally_update, Traffic.tally, hservices]
    rfl
  refine ⟨fun other => ?_, fun other => ?_, htotal, ?_⟩
  · rw [heq, htally, h.tally, h.tally]
    split
    · rename_i hother
      rw [hother]
    · rfl
  · rw [hservices, Traffic.contains_update, Bool.or_eq_true, decide_eq_true_eq, h.shown, hshown]
  · have hsum := j.traffic.sum_update service f
    rw [← hservices, h.sum] at hsum
    omega

/-- A new visit is one more request in flight. -/
theorem Tallied.started (h : Tallied j) {t : Nat} {service : String} {j' : Journal}
    (hv : j'.visits = j.visits ++ [{ service, since := t }])
    (ht : j'.traffic = j.traffic.started service) (few : j'.visits.length < 2 ^ 64) :
    Tallied j' := by
  have hlength : j'.visits.length = j.visits.length + 1 := by
    rw [hv, List.length_append, List.length_singleton]
  have hrequests := h.requests (by omega) service
  have hle := Visit.length_only_le j.visits service
  refine h.update service Tally.start (by rw [ht]; rfl) (fun other => ?_) (fun other => ?_) ?_ ?_
  · rw [hv, Visit.tally_perm (Visit.only_perm List.perm_append_comm other),
      List.singleton_append, Visit.only_cons]
    by_cases hs : service = other
    · rw [if_pos hs, if_pos hs.symm]
      exact Visit.tally_cons_of_isOpen rfl _
    · rw [if_neg hs, if_neg (Ne.symm hs), List.nil_append]
  · rw [hv, List.map_append, List.mem_append, List.map_singleton, List.mem_singleton, or_comm]
  · have htotal := h.total
    rw [Traffic.total] at htotal
    rw [ht, hlength, Traffic.total, Traffic.started, UInt64.toNat_add, htotal, UInt64.toNat_one]
    exact Nat.mod_eq_of_lt (by omega)
  · rw [hlength, Tally.start, UInt64.toNat_add, hrequests, UInt64.toNat_one,
      Nat.mod_eq_of_lt (by omega)]
    omega

/-- A visit that is over is one request less in flight. -/
theorem Tallied.closed (h : Tallied j) {n t : Nat} {v : Visit} {c : Proxy.Closing} {j' : Journal}
    (hn : j.visits[n]? = some v) (ho : v.isOpen = true)
    (hv : j'.visits = j.visits.set n { v with progress := .over t c })
    (ht : j'.traffic = c.book v.service (t - v.since) j.traffic)
    (few : j'.visits.length < 2 ^ 64) : Tallied j' := by
  rw [Proxy.Closing.book_eq] at ht
  have hlength : j'.visits.length = j.visits.length := by rw [hv, List.length_set]
  refine h.update v.service (c.count (t - v.since)) (by rw [ht]) (fun other => ?_)
    (fun other => ?_) (by rw [ht, hlength, ← h.total]; rfl) (by rw [hlength, c.count_requests])
  · obtain ⟨rest, hbefore, hafter⟩ :=
      Visit.only_set hn { v with progress := .over t c } rfl other
    rw [hv, Visit.tally_perm hafter, Visit.tally_perm hbefore]
    by_cases hs : v.service = other
    · have hroom := Nat.lt_of_le_of_lt (Visit.length_only_le j.visits other) (hlength ▸ few)
      rw [hbefore.length_eq, if_pos hs, List.singleton_append, List.length_cons] at hroom
      simp only [if_pos hs, if_pos hs.symm, List.singleton_append]
      exact Visit.tally_cons_of_over ho t c hroom
    · simp only [if_neg hs, if_neg (Ne.symm hs)]
  · have hservices : j'.visits.map (·.service) = j.visits.map (·.service) := by
      rw [hv]
      exact Visit.services_set hn rfl
    rw [hservices, iff_or_self]
    rintro rfl
    exact List.mem_map_of_mem (List.mem_of_getElem? hn)

/-- A visit whose body has been read counts as before. -/
theorem Tallied.engaged (h : Tallied j) {n : Nat} {v : Visit} {j' : Journal}
    (hn : j.visits[n]? = some v) (hr : v.progress = .reading)
    (hv : j'.visits = j.visits.set n { v with progress := .waiting })
    (ht : j'.traffic = j.traffic) : Tallied j' := by
  have hlength : j'.visits.length = j.visits.length := by rw [hv, List.length_set]
  have hservices : j'.visits.map (·.service) = j.visits.map (·.service) := by
    rw [hv]
    exact Visit.services_set hn rfl
  have hsame (other : String) : Visit.tally (Visit.only j'.visits other) =
      Visit.tally (Visit.only j.visits other) := by
    obtain ⟨rest, hbefore, hafter⟩ :=
      Visit.only_set hn { v with progress := .waiting } rfl other
    rw [hv, Visit.tally_perm hafter, Visit.tally_perm hbefore]
    by_cases hs : v.service = other
    · simp only [if_pos hs, List.singleton_append]
      rw [Visit.tally_cons_of_isOpen rfl, Visit.tally_cons_of_isOpen (by rw [Visit.isOpen, hr])]
    · simp only [if_neg hs]
  refine ⟨fun s => ?_, fun s => ?_, ?_, ?_⟩
  · rw [ht, hsame, h.tally]
  · rw [ht, hservices, h.shown]
  · rw [ht, hlength, h.total]
  · rw [ht, hlength, h.sum]

theorem Tallied.turn (h : Tallied j) {t : Nat} {j' : Journal} (ht : Turn j t j')
    (few : j'.visits.length < 2 ^ 64) : Tallied j' := by
  cases ht with
  | started service hv ht => exact h.started hv ht few
  | closed n v c hn ho hv ht => exact h.closed hn ho hv ht few
  | engaged n v hn hr hv ht => exact h.engaged hn hr hv ht
  | still hv ht =>
    exact ⟨by rw [ht, hv]; exact h.tally, by rw [ht, hv]; exact h.shown,
      by rw [ht, hv]; exact h.total, by rw [ht, hv]; exact h.sum⟩

/-- No visit is ever forgotten. -/
theorem Turn.length_le {t : Nat} {j' : Journal} (ht : Turn j t j') :
    j.visits.length ≤ j'.visits.length := by
  cases ht with
  | started service hv ht => simp [hv]
  | closed n v c hn ho hv ht => simp [hv]
  | engaged n v hn hr hv ht => simp [hv]
  | still hv ht => rw [hv]

/-! ### The hooks -/

/-- What is booked for a request: when it begins, and when it is over. -/
inductive Hook where
  | started (service : String)
  | closed (service : String) (nanos : Nat) (c : Closing)

/-- Books a hook, unless the count of the requests in flight would fall below zero. -/
def Hook.book? (t : Traffic) : Hook → Option Traffic
  | started service => some (t.started service)
  | closed service nanos c =>
    if 0 < (t.tally service).inFlight then some (c.book service nanos t) else none

/-- The hooks of one visit. -/
def hooks (v : Visit) : List Hook :=
  .started v.service ::
    match v.progress with
    | .over moment c => [.closed v.service (moment - v.since) c]
    | _ => []

theorem hooks_of_isOpen {v : Visit} (h : v.isOpen = true) : hooks v = [.started v.service] := by
  cases hp : v.progress <;> simp_all [hooks, Visit.isOpen]

/-- The hooks of all visits, in some order, have been booked. -/
def Booked (j : Journal) : Prop :=
  ∃ log : List (Nat × Hook),
    (∀ n, (log.filter (·.1 = n)).map (·.2) = ((j.visits[n]?).map hooks).getD []) ∧
    (log.map (·.2)).foldlM Hook.book? {} = some j.traffic

theorem booked_start (threshold : UInt32) (strategy : Strategy) :
    Booked (start threshold strategy) := ⟨[], fun _ => rfl, rfl⟩

theorem Booked.append (h : Booked j) {j' : Journal} (n : Nat) (hook : Hook)
    (hn : ((j'.visits[n]?).map hooks).getD [] = ((j.visits[n]?).map hooks).getD [] ++ [hook])
    (hother : ∀ k, k ≠ n → j'.visits[k]? = j.visits[k]?)
    (ht : hook.book? j.traffic = some j'.traffic) : Booked j' := by
  obtain ⟨log, hlog, hbooked⟩ := h
  refine ⟨log ++ [(n, hook)], fun k => ?_, ?_⟩
  · rw [List.filter_append, List.map_append, hlog]
    by_cases hk : k = n
    · subst hk
      simp [hn]
    · have : n ≠ k := Ne.symm hk
      simp [hother k hk, this]
  · rw [List.map_append, List.foldlM_append, hbooked]
    simp [ht]

theorem Booked.turn (hb : Booked j) (h : Tallied j) {t : Nat} {j' : Journal} (ht : Turn j t j')
    (few : j'.visits.length < 2 ^ 64) : Booked j' := by
  cases ht with
  | started service hv ht =>
    refine hb.append j.visits.length (.started service) ?_ (fun k hk => ?_)
      (congrArg some ht.symm)
    · rw [hv, List.getElem?_concat_length, List.getElem?_eq_none (Nat.le_refl _)]
      rfl
    · rw [hv]
      rcases Nat.lt_or_gt_of_ne hk with hlt | hgt
      · exact List.getElem?_append_left hlt
      · rw [List.getElem?_eq_none (Nat.le_of_lt hgt),
          List.getElem?_eq_none (by rw [List.length_append]; exact hgt)]
  | closed n v c hn ho hv ht =>
    obtain ⟨hlt, -⟩ := List.getElem?_eq_some_iff.1 hn
    have hflight : 0 < (j.traffic.tally v.service).inFlight := by
      have hroom : (Visit.only j.visits v.service).length < 2 ^ 64 := by
        have hle := Visit.length_only_le j.visits v.service
        rw [hv, List.length_set] at few
        omega
      rw [h.tally, UInt64.lt_iff_toNat_lt, (Visit.tally_toNat hroom).2.2.2]
      exact List.countP_pos_iff.2 ⟨v, Visit.mem_only hn, ho⟩
    refine hb.append n (.closed v.service (t - v.since) c) ?_ (fun k hk => ?_)
      ((if_pos hflight).trans (congrArg some ht.symm))
    · simp only [hv, List.getElem?_set_self hlt, hn, Option.map_some, Option.getD_some,
        hooks_of_isOpen ho]
      rfl
    · rw [hv, List.getElem?_set_ne (Ne.symm hk)]
  | engaged n v hn hr hv ht =>
    obtain ⟨log, hlog, hbooked⟩ := hb
    refine ⟨log, fun k => ?_, by rwa [ht]⟩
    rw [hlog, hv]
    by_cases hk : n = k
    · subst hk
      obtain ⟨hlt, -⟩ := List.getElem?_eq_some_iff.1 hn
      rw [List.getElem?_set_self hlt, hn]
      exact hooks_of_isOpen (by rw [Visit.isOpen, hr])
    · rw [List.getElem?_set_ne hk]
  | still hv ht =>
    obtain ⟨log, hlog, hbooked⟩ := hb
    exact ⟨log, by rwa [hv], by rwa [ht]⟩

theorem matches_run (h : Matches j) (calls : List (Nat × Call)) :
    Matches (j.run calls) ∧ j.visits.length ≤ (j.run calls).visits.length := by
  induction calls generalizing j with
  | nil => exact ⟨h, Nat.le_refl _⟩
  | cons e rest ih =>
    obtain ⟨hm, hturn⟩ := turn_step h e
    exact ⟨(ih hm).1, Nat.le_trans hturn.length_le (ih hm).2⟩

/-- The traffic is accounted for in every state, as long as there is room for its counts. -/
theorem accounted_run (h : Matches j) (ht : Tallied j) (hb : Booked j)
    {calls : List (Nat × Call)} (few : (j.run calls).visits.length < 2 ^ 64) :
    Tallied (j.run calls) ∧ Booked (j.run calls) := by
  induction calls generalizing j with
  | nil => exact ⟨ht, hb⟩
  | cons e rest ih =>
    obtain ⟨hm, hturn⟩ := turn_step h e
    have hroom := Nat.lt_of_le_of_lt (matches_run hm rest).2 few
    exact ih hm (ht.turn hturn hroom) (hb.turn ht hturn hroom) few

end Journal

/-! ### The mean duration -/

namespace Visit

/-- The number of visits that are over. -/
def overCount (vs : List Visit) : Nat := vs.countP fun v => !v.isOpen

theorem tally_completed {vs : List Visit} (few : vs.length < 2 ^ 64) :
    (tally vs).completed = overCount vs := by
  have hlength := List.length_eq_countP_add_countP isOpen (l := vs)
  have hover : vs.countP (fun v => decide ¬(v.isOpen = true)) = overCount vs :=
    List.countP_congr fun v _ => by simp
  obtain ⟨hrequests, -, -, hflight⟩ := tally_toNat few
  rw [Tally.completed, hrequests, hflight]
  omega

theorem tally_average {vs : List Visit} (few : vs.length < 2 ^ 64)
    (hsum : totalMillis vs < 2 ^ 64) :
    (tally vs).average =
      if overCount vs = 0 then Binary64.zero
      else Binary64.ofQuotient (totalMillis vs) (overCount vs) := by
  have hmillis : (tally vs).millis.toNat = totalMillis vs := by
    simp only [tally]
    exact Nat.mod_eq_of_lt hsum
  rw [Tally.average, tally_completed few, hmillis]

end Visit

/-! ### The visit of a forwarded request -/

/-- How a request has ended for its caller. -/
def Api.Served.closing (s : Api.Served) : Closing :=
  match s.response with
  | some r => .answered r.status
  | none => .left

namespace Journal

variable {j : Journal}

theorem modify_concat (vs : List Visit) (v : Visit) (f : Visit → Visit) :
    (vs ++ [v]).modify vs.length f = vs ++ [f v] := by
  rw [modify_eq_set List.getElem?_concat_length]
  simp

theorem visits_of_course {service : String} {now draw : Nat} {rest : List (Nat × Call)}
    {served : Api.Served}
    (h : Api.Course (j.step (now, .start service)).forwarding j.visits.length now draw rest
      served) :
    ∃ moment, ((j.step (now, .start service)).run rest).visits =
      j.visits ++ [{ service, since := now, progress := .over moment served.closing }] := by
  have hstart : (j.step (now, .start service)).visits =
    j.visits ++ [{ service, since := now }] := rfl
  generalize j.step (now, .start service) = k at h hstart
  cases h with
  | turnedAway fault =>
    refine ⟨now, ?_⟩
    rw [run_cons, run_nil, visits_act, hstart, modify_concat]
    rfl
  | refused fault h =>
    refine ⟨now, ?_⟩
    rw [run_cons, run_nil, visits_engage, hstart, modify_concat, h]
    rfl
  | engaged l t a served h hs =>
    refine ⟨t, ?_⟩
    rw [run_cons, run_cons, run_nil, visits_act, visits_engage, hstart, modify_concat,
      modify_concat, h]
    cases hs with
    | relayed status response requests hstatus =>
      rw [Api.Served.closing]
      simp only [hstatus]
      rfl
    | failed fault requests => rfl
    | left requests => rfl

theorem visits_changes (j : Journal) (cs : List (Instant × Registry.Change)) :
    (j.run (Forwarding.changes cs)).visits = j.visits := by
  induction cs generalizing j with
  | nil => rfl
  | cons e rest ih => exact ih (j.step (0, .change e.1 e.2))

/-- A forwarded request is one visit, and it ends with the response. -/
theorem visit_forward (h : Matches j) {g : Gateway} (hr : g.registry = j.forwarding.registry)
    (hp : g.proxy = j.forwarding.proxy) (service path : String) (r : Http.Request)
    (patience : Option Nat) :
    let o := Api.forward g service path r patience
    ∃ calls moment,
      (j.run calls).forwarding = ⟨o.1.registry, o.1.proxy, j.forwarding.leases⟩ ∧
      (j.run calls).visits =
        j.visits ++ [{ service, since := g.nanos, progress := .over moment o.2.closing }] := by
  intro o
  obtain ⟨rest, cs, hrun, hcourse⟩ := Api.forward_run hr hp service path r patience
  rw [← h.length] at hcourse
  obtain ⟨moment, hvisits⟩ := visits_of_course hcourse
  refine ⟨(g.nanos, .start service) :: rest ++ Forwarding.changes cs, moment, ?_, ?_⟩
  · rw [run_forwarding, Forwarding.run_append, hrun]
  · rw [run_append, visits_changes]
    exact hvisits

/-! ### The traffic in every state -/

/-- Three requests for one service, one of which takes `2 ^ 53 + 1` milliseconds. -/
def longCalls : List (Nat × Call) :=
  let fault : Fault := .payloadTooLarge 0
  [(0, .start "api"), (0, .start "api"), (0, .start "api"), (0, .act 0 (.turnAway fault)),
    (0, .act 1 (.turnAway fault)), (9007199254740993000000, .act 2 (.turnAway fault))]

/-- The forwarding of requests takes its course beside the books, and a forwarded request is one
visit. With fewer than `2 ^ 64` requests the traffic is that of the visits, and each of them is
booked once for its beginning and once for its end. -/
theorem traffic_is_visits (threshold : UInt32) (strategy : Strategy) (calls : List (Nat × Call)) :
    let j := (start threshold strategy).run calls
    j.forwarding = (Forwarding.start threshold strategy).run calls ∧
    (∀ g : Gateway, g.registry = j.forwarding.registry → g.proxy = j.forwarding.proxy →
      ∀ service path r patience,
        let o := Api.forward g service path r patience
        ∃ calls moment,
          (j.run calls).forwarding = ⟨o.1.registry, o.1.proxy, j.forwarding.leases⟩ ∧
          (j.run calls).visits =
            j.visits ++ [{ service, since := g.nanos, progress := .over moment o.2.closing }]) ∧
    (j.visits.length < 2 ^ 64 →
      (∀ service,
        let vs := Visit.only j.visits service
        let t := j.traffic.tally service
        (t.requests.toNat = vs.length ∧ t.errors.toNat = vs.countP Visit.isError ∧
          t.cancelled.toNat = vs.countP Visit.isDropped ∧
          t.inFlight.toNat = vs.countP Visit.isOpen) ∧
        t = Visit.tally vs ∧
        (j.traffic.services.contains service = true ↔ vs ≠ []) ∧
        (Visit.totalMillis vs < 2 ^ 64 →
          t.average =
            if Visit.overCount vs = 0 then Binary64.zero
            else Binary64.ofQuotient (Visit.totalMillis vs) (Visit.overCount vs)) ∧
        -- the exact quotient is rounded once
        (Visit.totalMillis vs ≤ 2 ^ 53 → Visit.overCount vs ≤ 2 ^ 53 → Visit.overCount vs ≠ 0 →
          t.average =
            Binary64.ofRatio false (Visit.totalMillis vs) (Visit.overCount vs))) ∧
      j.traffic.total = j.traffic.services.sum (·.requests.toNat) ∧
      Booked j) := by
  intro j
  have hmatches : Matches j := (matches_run (matches_start threshold strategy) calls).1
  refine ⟨run_forwarding _ calls, fun g hr hp service path r patience =>
    visit_forward hmatches hr hp service path r patience, fun few => ?_⟩
  obtain ⟨htallied, hbooked⟩ := accounted_run (matches_start threshold strategy)
    (tallied_start threshold strategy) (booked_start threshold strategy) few
  refine ⟨fun service => ?_, htallied.total.trans htallied.sum.symm, hbooked⟩
  have htally := htallied.tally service
  have hroom := Nat.lt_of_le_of_lt (Visit.length_only_le j.visits service) few
  have haverage := Visit.tally_average hroom
  have hcounts := Visit.tally_toNat hroom
  rw [← htally] at haverage hcounts
  refine ⟨hcounts, htally, ?_, haverage, fun hsum hover hne => ?_⟩
  · rw [htallied.shown, Visit.only_ne_nil]
  · rw [haverage (Nat.lt_of_le_of_lt hsum (by decide)), if_neg hne,
      Binary64.ofQuotient_eq_ofRatio hsum hover hne]

theorem traffic_is_visits_long :
    let j := (start 3 .roundRobin).run longCalls
    j.visits.length < 2 ^ 64 ∧ (j.traffic.tally "api").requests.toNat = 3 ∧
      (j.traffic.tally "api").inFlight.toNat = 0 ∧ (j.traffic.tally "api").errors.toNat = 0 := by
  intro j
  have few : j.visits.length < 2 ^ 64 := by decide
  obtain ⟨-, -, hcounts⟩ := traffic_is_visits 3 .roundRobin longCalls
  obtain ⟨⟨hrequests, herrors, -, hflight⟩, -⟩ := (hcounts few).1 "api"
  exact ⟨few, hrequests.trans (by decide), hflight.trans (by decide), herrors.trans (by decide)⟩

/-- A sum that is no number is rounded before it is divided. -/
theorem average_of_longCalls :
    let j := (start 3 .roundRobin).run longCalls
    let vs := Visit.only j.visits "api"
    Visit.totalMillis vs = 3 * 3002399751580331 ∧ Visit.overCount vs = 3 ∧
      (j.traffic.tally "api").average ≠ Binary64.ofNat 3002399751580331 ∧
      (j.traffic.tally "api").average ≠
        Binary64.ofRatio false (Visit.totalMillis vs) (Visit.overCount vs) := by
  decide

end Journal

end Switchyard
