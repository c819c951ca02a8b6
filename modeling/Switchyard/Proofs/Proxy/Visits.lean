import Mathlib.Algebra.Ring.Nat
import Switchyard.Proofs.Proxy.Forwarding

/-! The visits of requests. A visit is written from the calls and the answers alone: it begins
when a request comes in, and it is over when the request has been answered or its caller has
gone away. `turn_step` says what a call can make of the visits and of the traffic. -/
namespace Switchyard

open Proxy (Act Closing)
open Forwarding (Call)

/-! ### Visits -/

/-- How far a request has come. -/
inductive Progress where
  | reading
  | waiting
  /-- It has been answered, or its caller has gone away. -/
  | over (moment : Nat) (c : Closing)
deriving DecidableEq, Inhabited

namespace Progress

/-- The choice of an instance. -/
def engage (t : Nat) (answer : Except Fault Lease) : Progress → Progress
  | .reading =>
    match answer with
    | .ok _ => .waiting
    | .error f => .over t (.answered f.status)
  | p => p

def act (t : Nat) : Act → Progress → Progress
  | .turnAway f, .reading => .over t (.answered f.status)
  | .relay status, .waiting => .over t (.answered status)
  | .giveUp f, .waiting => .over t (.answered f.status)
  | .cancel, .reading | .cancel, .waiting => .over t .left
  | _, p => p

/-- Whether the stage of an exchange is that of a request. -/
def Fits : Progress → Stage → Prop
  | .reading, s => s = .reading
  | .waiting, s => ∃ l, s = .waiting l
  | .over _ _, s => s.isOpen = false

/-- An act that is a move of the exchange closes the request in the same way. -/
theorem act_eq {a : Act} {s : Stage} {p : Progress} (h : p.Fits s) (t : Nat) :
    match a.move? s with
    | none => p.act t a = p
    | some m => (p.act t a).Fits m.stage ∧
      match m.closing with
      | none => p.act t a = p
      | some c => p.act t a = .over t c := by
  cases a <;> cases s <;> cases p <;> simp_all [Fits, Act.move?, act, Stage.isOpen]

end Progress

structure Visit where
  service : String
  /-- The nanosecond at which the request came in. -/
  since : Nat
  progress : Progress := .reading
deriving DecidableEq, Inhabited

namespace Visit

/-- Whether the request is neither answered nor dropped. -/
def isOpen (v : Visit) : Bool :=
  match v.progress with
  | .over _ _ => false
  | _ => true

/-- Whether it was answered with a server error. -/
def isError (v : Visit) : Bool :=
  match v.progress with
  | .over _ (.answered status) => Traffic.isServerError status
  | _ => false

def isDropped (v : Visit) : Bool :=
  match v.progress with
  | .over _ .left => true
  | _ => false

/-- The whole milliseconds of a visit that is over. -/
def millis (v : Visit) : Nat :=
  match v.progress with
  | .over moment _ => (moment - v.since) / 1000000
  | _ => 0

/-- The milliseconds of all visits that are over. -/
def totalMillis (vs : List Visit) : Nat := (vs.map millis).sum

/-- The counts of visits to one service, modulo `2 ^ 64`. -/
def tally (vs : List Visit) : Tally where
  requests := vs.length.toUInt64
  errors := (vs.countP isError).toUInt64
  cancelled := (vs.countP isDropped).toUInt64
  inFlight := (vs.countP isOpen).toUInt64
  millis := (totalMillis vs).toUInt64

/-- The visits to a service. -/
def only (vs : List Visit) (service : String) : List Visit := vs.filter (·.service = service)

end Visit

/-- A proxy at work and the visits of its requests. -/
structure Journal where
  forwarding : Forwarding
  visits : List Visit := []

/-- A visit is that of an exchange. -/
structure Visit.Shows (v : Visit) (e : Exchange) : Prop where
  service : v.service = e.service
  since : v.since = e.begun
  fits : v.progress.Fits e.stage

theorem Visit.Shows.reading {v : Visit} {e : Exchange} (h : v.Shows e) (he : e.stage = .reading) :
    v.progress = .reading := by
  have hfits := h.fits
  rw [he] at hfits
  cases hp : v.progress <;> simp_all [Progress.Fits, Stage.isOpen]

theorem Visit.Shows.isOpen {v : Visit} {e : Exchange} (h : v.Shows e) :
    v.isOpen = e.stage.isOpen := by
  have hfits := h.fits
  cases hp : v.progress <;> rw [hp] at hfits <;> rw [Visit.isOpen, hp]
  · rw [show e.stage = .reading from hfits]
    rfl
  · obtain ⟨l, hl⟩ := hfits
    rw [hl]
    rfl
  · exact (show e.stage.isOpen = false from hfits).symm

namespace Journal

def start (threshold : UInt32) (strategy : Strategy) : Journal :=
  { forwarding := .start threshold strategy }

def step (j : Journal) (e : Nat × Call) : Journal where
  forwarding := j.forwarding.step e
  visits :=
    match e.2 with
    | .start service => j.visits ++ [{ service, since := e.1 }]
    | .engage n draw =>
      let answer := (j.forwarding.engagement n e.1 draw).answer
      j.visits.modify n fun v => { v with progress := v.progress.engage e.1 answer }
    | .act n a => j.visits.modify n fun v => { v with progress := v.progress.act e.1 a }
    | _ => j.visits

def run (j : Journal) (calls : List (Nat × Call)) : Journal := calls.foldl step j

def traffic (j : Journal) : Traffic := j.forwarding.proxy.traffic

@[simp] theorem run_nil (j : Journal) : j.run [] = j := rfl

@[simp] theorem run_cons (j : Journal) (e : Nat × Call) (rest : List (Nat × Call)) :
    j.run (e :: rest) = (j.step e).run rest := rfl

theorem run_append (j : Journal) (before after : List (Nat × Call)) :
    j.run (before ++ after) = (j.run before).run after := List.foldl_append

theorem visits_engage (j : Journal) (t n draw : Nat) :
    (j.step (t, .engage n draw)).visits = j.visits.modify n fun v =>
      { v with progress := v.progress.engage t (j.forwarding.engagement n t draw).answer } := rfl

theorem visits_act (j : Journal) (t n : Nat) (a : Act) :
    (j.step (t, .act n a)).visits =
      j.visits.modify n fun v => { v with progress := v.progress.act t a } := rfl

/-- Keeping the journal leaves the proxy alone. -/
theorem run_forwarding (j : Journal) (calls : List (Nat × Call)) :
    (j.run calls).forwarding = j.forwarding.run calls := by
  induction calls generalizing j with
  | nil => rfl
  | cons e rest ih => exact ih (j.step e)

/-! ### What a call makes of the journal -/

variable {j : Journal}

/-- The exchanges are those of the visits. -/
structure Matches (j : Journal) : Prop where
  length : j.visits.length = j.forwarding.proxy.exchanges.length
  each : ∀ {n : Nat} {e : Exchange}, j.forwarding.proxy.exchanges[n]? = some e →
    ∃ v, j.visits[n]? = some v ∧ v.Shows e

/-- What a call at a nanosecond makes of the visits and the traffic. -/
inductive Turn (j : Journal) (t : Nat) (j' : Journal) : Prop where
  | started (service : String) (hv : j'.visits = j.visits ++ [{ service, since := t }])
      (ht : j'.traffic = j.traffic.started service)
  | closed (n : Nat) (v : Visit) (c : Closing) (h : j.visits[n]? = some v) (ho : v.isOpen = true)
      (hv : j'.visits = j.visits.set n { v with progress := .over t c })
      (ht : j'.traffic = c.book v.service (t - v.since) j.traffic)
  | engaged (n : Nat) (v : Visit) (h : j.visits[n]? = some v) (hr : v.progress = .reading)
      (hv : j'.visits = j.visits.set n { v with progress := .waiting })
      (ht : j'.traffic = j.traffic)
  | still (hv : j'.visits = j.visits) (ht : j'.traffic = j.traffic)

/-- A call that brings an exchange and its visit to the same stage. -/
theorem Matches.set (h : Matches j) {n : Nat} {e : Exchange} {v : Visit}
    (hv : j.visits[n]? = some v) (he : j.forwarding.proxy.exchanges[n]? = some e)
    (hs : v.Shows e) (p : Progress) (stage : Stage) (hfits : p.Fits stage) {j' : Journal}
    (hvisits : j'.visits = j.visits.set n { v with progress := p })
    (hexchanges : j'.forwarding.proxy.exchanges =
      j.forwarding.proxy.exchanges.set n { e with stage }) : Matches j' where
  length := by rw [hvisits, hexchanges, List.length_set, List.length_set, h.length]
  each {k x} hk := by
    rw [hexchanges, List.getElem?_set] at hk
    rw [hvisits, List.getElem?_set]
    obtain ⟨hn, -⟩ := List.getElem?_eq_some_iff.1 hv
    obtain ⟨hn', -⟩ := List.getElem?_eq_some_iff.1 he
    by_cases hkn : n = k
    · simp only [if_pos hkn, if_pos hn', Option.some.injEq] at hk
      simp only [if_pos hkn, if_pos hn]
      exact ⟨_, rfl, hk ▸ ⟨hs.service, hs.since, hfits⟩⟩
    · simp only [if_neg hkn] at hk ⊢
      exact h.each hk

theorem Matches.exchange (h : Matches j) {n : Nat} {v : Visit} (hv : j.visits[n]? = some v) :
    ∃ e, j.forwarding.proxy.exchanges[n]? = some e ∧ v.Shows e := by
  obtain ⟨hn, -⟩ := List.getElem?_eq_some_iff.1 hv
  rw [h.length] at hn
  have he := List.getElem?_eq_getElem hn
  obtain ⟨v', hv', hs⟩ := h.each he
  cases hv.symm.trans hv'
  exact ⟨_, he, hs⟩

theorem set_eq_self {vs : List Visit} {n : Nat} {v : Visit} (h : vs[n]? = some v) :
    vs.set n v = vs := by
  obtain ⟨hn, rfl⟩ := List.getElem?_eq_some_iff.1 h
  exact List.set_getElem_self hn

theorem modify_eq_self {vs : List Visit} {n : Nat} {f : Visit → Visit}
    (h : ∀ v, vs[n]? = some v → f v = v) : vs.modify n f = vs := by
  cases hv : vs[n]? with
  | none => exact List.modify_eq_self (List.getElem?_eq_none_iff.1 hv)
  | some v => rw [modify_eq_set hv, h v hv, set_eq_self hv]

theorem turn_still (h : Matches j) (j' : Journal) (hv : j'.visits = j.visits)
    (hx : j'.forwarding.proxy.exchanges = j.forwarding.proxy.exchanges)
    (ht : j'.traffic = j.traffic) (t : Nat) : Matches j' ∧ Turn j t j' := by
  refine ⟨⟨by rw [hv, hx, h.length], fun {n e} hn => ?_⟩, .still hv ht⟩
  rw [hx] at hn
  rw [hv]
  exact h.each hn

theorem turn_engage (h : Matches j) (t n draw : Nat) :
    Matches (j.step (t, .engage n draw)) ∧ Turn j t (j.step (t, .engage n draw)) := by
  have hv := visits_engage j t n draw
  have hp : (j.step (t, .engage n draw)).forwarding.proxy =
    (j.forwarding.engagement n t draw).state := rfl
  rcases j.forwarding.engagement_cases n t draw with
    ⟨e, i, he, hread, -, hstate, hanswer⟩ | ⟨e, he, hread, hstate, hanswer⟩ | ⟨hnot, hstate, -⟩
  · obtain ⟨v, hvisit, hs⟩ := h.each he
    have hr := hs.reading hread
    rw [hanswer, modify_eq_set hvisit, hr] at hv
    rw [hstate] at hp
    refine ⟨h.set hvisit he hs .waiting (.waiting ⟨i⟩) ⟨_, rfl⟩ hv (by rw [hp]), ?_⟩
    refine .engaged n v hvisit hr hv ?_
    rw [traffic, hp]
    rfl
  · obtain ⟨v, hvisit, hs⟩ := h.each he
    have hr := hs.reading hread
    rw [hanswer, modify_eq_set hvisit, hr] at hv
    rw [hstate] at hp
    refine ⟨h.set hvisit he hs (.over t _) .over rfl hv (by rw [hp]; rfl), ?_⟩
    refine .closed n v _ hvisit (by rw [Visit.isOpen, hr]) hv ?_
    rw [traffic, hp, hs.service, hs.since]
    rfl
  · rw [hstate] at hp
    refine turn_still h _ (hv.trans (modify_eq_self fun v hvisit => ?_)) (by rw [hp])
      (congrArg Proxy.traffic hp) t
    obtain ⟨e, he, hs⟩ := h.exchange hvisit
    have hr : v.progress ≠ .reading := fun hr => hnot e he (by have := hs.fits; rwa [hr] at this)
    cases v with
    | mk service since progress => cases progress <;> simp_all [Progress.engage]

theorem turn_act (h : Matches j) (t n : Nat) (a : Act) :
    Matches (j.step (t, .act n a)) ∧ Turn j t (j.step (t, .act n a)) := by
  have hv := visits_act j t n a
  have hp : (j.step (t, .act n a)).forwarding.proxy = j.forwarding.proxy.act n t a := rfl
  cases he : j.forwarding.proxy.exchanges[n]? with
  | none =>
    rw [Proxy.act_of_none a he] at hp
    refine turn_still h _ (hv.trans (modify_eq_self fun v hvisit => ?_)) (by rw [hp])
      (congrArg Proxy.traffic hp) t
    obtain ⟨e, hsome, -⟩ := h.exchange hvisit
    cases he.symm.trans hsome
  | some e =>
    obtain ⟨v, hvisit, hs⟩ := h.each he
    have hact := Progress.act_eq (a := a) hs.fits t
    rw [Proxy.act_eq a he] at hp
    cases hm : a.move? e.stage with
    | none =>
      rw [hm] at hact hp
      refine turn_still h _ (hv.trans (modify_eq_self fun v' hv' => ?_)) (by rw [hp]; rfl)
        (congrArg Proxy.traffic hp) t
      cases hvisit.symm.trans hv'
      rw [hact]
    | some m =>
      rw [hm] at hact hp
      obtain ⟨hfits, hclosing⟩ := hact
      rw [modify_eq_set hvisit] at hv
      refine ⟨h.set hvisit he hs _ m.stage hfits hv (by rw [hp]; rfl), ?_⟩
      obtain ⟨-, -, hopen, -⟩ := Proxy.move?_spec hm
      cases hc : m.closing with
      | none =>
        rw [hc] at hclosing
        simp only at hclosing
        rw [hclosing] at hv
        refine .still (hv.trans (set_eq_self hvisit)) ?_
        rw [traffic, hp]
        simp [Proxy.perform, hc, traffic]
      | some c =>
        rw [hc] at hclosing hopen
        simp only at hclosing
        rw [hclosing] at hv
        refine .closed n v c hvisit (by rw [hs.isOpen, ← hopen]; rfl) hv ?_
        rw [traffic, hp, hs.service, hs.since]
        simp [Proxy.perform, hc, Proxy.age, traffic]

theorem Matches.started (h : Matches j) (t : Nat) (service : String) :
    Matches (j.step (t, .start service)) where
  length := by simp [step, Forwarding.step, Proxy.start, h.length]
  each {n e} hn := by
    simp only [step, Forwarding.step, Proxy.start, List.getElem?_append] at hn ⊢
    rw [h.length]
    by_cases hlt : n < j.forwarding.proxy.exchanges.length
    · rw [if_pos hlt] at hn ⊢
      exact h.each hn
    · rw [if_neg hlt] at hn ⊢
      obtain ⟨hzero, rfl⟩ := List.getElem?_eq_some_iff.1 hn
      have hfirst : n - j.forwarding.proxy.exchanges.length = 0 := Nat.lt_one_iff.1 hzero
      simp only [hfirst]
      exact ⟨_, rfl, rfl, rfl, rfl⟩

/-- A call is one turn for the visits and the traffic. -/
theorem turn_step (h : Matches j) (e : Nat × Call) :
    Matches (j.step e) ∧ Turn j e.1 (j.step e) := by
  obtain ⟨t, c⟩ := e
  cases c with
  | change moment c =>
    exact turn_still h (j.step (t, .change moment c)) rfl rfl rfl t
  | select service draw =>
    exact turn_still h (j.step (t, .select service draw)) rfl rfl rfl t
  | release place =>
    have hp : (j.forwarding.step (t, .release place)).proxy.exchanges =
        j.forwarding.proxy.exchanges ∧
        (j.forwarding.step (t, .release place)).proxy.traffic = j.forwarding.proxy.traffic := by
      simp only [Forwarding.step]
      split <;> exact ⟨rfl, rfl⟩
    exact turn_still h (j.step (t, .release place)) rfl hp.1 hp.2 t
  | start service =>
    exact ⟨h.started t service, .started service rfl rfl⟩
  | engage n draw => exact turn_engage h t n draw
  | act n a => exact turn_act h t n a

theorem matches_start (threshold : UInt32) (strategy : Strategy) :
    Matches (start threshold strategy) := ⟨rfl, nofun⟩

end Journal

end Switchyard
