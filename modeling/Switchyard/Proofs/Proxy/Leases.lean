import Mathlib.Data.List.Perm.Basic
import Switchyard.Proofs.Proxy.Forwarding

/-! The leases that are out, those of exchanges among them, and the counts of the balancer. An
exchange holds a lease from the choice of its instance until the request has failed or its
caller has gone away, or else until the response has been passed on; no other exchange holds
one. The counts are those of the leases that are out in every state. -/
namespace Switchyard.Forwarding

/-! ### The leases that are out -/

/-- The lease of an exchange. -/
def leaseOf (f : Forwarding) (n : Nat) : Option Lease := (f.proxy.stage? n).bind Stage.lease?

/-- All leases that are out. -/
def out (f : Forwarding) : List Lease :=
  f.leases ++ f.proxy.exchanges.filterMap (·.stage.lease?)

/-- The lease that a call gives back. -/
def returned (f : Forwarding) : Call → Option Lease
  | .release place => f.leases[place]?
  | .act n a => (f.proxy.exchanges[n]?).bind fun e => (a.move? e.stage).bind (·.back)
  | _ => none

open Balancer (Counts)

variable {f : Forwarding} {n now : Nat} {e : Exchange}

theorem out_perm {l rest : List Exchange} (h : l.Perm (e :: rest)) :
    (f.leases ++ l.filterMap (·.stage.lease?)).Perm
      (e.stage.lease?.toList ++ (f.leases ++ rest.filterMap (·.stage.lease?))) := by
  have hl := h.filterMap (·.stage.lease?)
  have hcons : (e :: rest).filterMap (·.stage.lease?) =
      e.stage.lease?.toList ++ rest.filterMap (·.stage.lease?) := by
    rw [List.filterMap_cons]
    cases e.stage.lease? <;> rfl
  rw [hcons] at hl
  exact (hl.append_left _).trans (List.perm_append_comm_assoc _ _ _)

/-- An exchange that comes to another stage changes its own lease only. -/
theorem out_set (h : f.proxy.exchanges[n]? = some e) (stage : Stage) :
    ∃ rest, f.out.Perm (e.stage.lease?.toList ++ rest) ∧
      (f.leases ++ (f.proxy.exchanges.set n { e with stage }).filterMap (·.stage.lease?)).Perm
        (stage.lease?.toList ++ rest) := by
  obtain ⟨hn, he⟩ := List.getElem?_eq_some_iff.1 h
  refine ⟨_, out_perm ?_, out_perm (List.set_perm_cons_eraseIdx hn { e with stage })⟩
  rw [← he]
  exact (List.getElem_cons_eraseIdx_perm hn).symm

/-- The counts are those of the leases that are out. -/
def Counted (f : Forwarding) : Prop := Counts f.proxy.balancer f.out

theorem counted_perform (h : Counted f) (he : f.proxy.exchanges[n]? = some e) {m : Proxy.Move}
    (hlease : e.stage.lease? = m.back.or m.stage.lease?)
    (hone : m.back = none ∨ m.stage.lease? = none) :
    Counted { f with proxy := f.proxy.perform n now e m } := by
  obtain ⟨rest, hbefore, hafter⟩ := out_set he m.stage
  have hcounts := h.perm hbefore
  cases hback : m.back with
  | none =>
    have hsame : Counts f.proxy.balancer (m.stage.lease?.toList ++ rest) := by
      rwa [hlease, hback, Option.none_or] at hcounts
    have hb : (f.proxy.perform n now e m).balancer = f.proxy.balancer := by
      simp [Proxy.perform, hback]
    rw [Counted, hb]
    exact hsame.perm hafter.symm
  | some l =>
    have hnone : m.stage.lease? = none := by simpa [hback] using hone
    rw [hlease, hback, hnone] at hcounts
    rw [hnone] at hafter
    have hb : (f.proxy.perform n now e m).balancer = f.proxy.balancer.release l := by
      simp [Proxy.perform, hback]
    rw [Counted, hb]
    exact Counts.release hcounts |>.perm hafter.symm

theorem counted_start (threshold : UInt32) (strategy : Strategy) :
    Counted (start threshold strategy) := Balancer.counts_start strategy

theorem counted_select (h : Counted f) (service : String) (draw : Nat) :
    Counted (f.step (now, .select service draw)) := by
  cases hi : f.proxy.balancer.choose service draw (f.registry.healthy service) with
  | none =>
    have hnone : f.choice service draw = _ := Balancer.select_of_none _ _ _ hi
    simpa [Counted, out, step, hnone, Except.toOption] using h
  | some i =>
    have hsome : (f.choice service draw).answer = .ok ⟨i⟩ := by
      rw [choice, Balancer.select_answer, hi]
    have hp : (⟨i⟩ :: f.out).Perm (f.step (now, .select service draw)).out := by
      simp only [out, step, hsome, Except.toOption, Option.toList_some, List.append_assoc]
      exact List.perm_middle.symm
    exact (Counts.select _ _ h hi).perm hp

theorem counted_release (h : Counted f) (place : Nat) :
    Counted (f.step (now, .release place)) := by
  cases hl : f.leases[place]? with
  | none => simpa [step, hl] using h
  | some l =>
    obtain ⟨hn, heq⟩ := List.getElem?_eq_some_iff.1 hl
    have hp : f.out.Perm (l :: (f.step (now, .release place)).out) := by
      simp only [step, hl, out]
      rw [← List.cons_append, ← heq]
      exact (List.getElem_cons_eraseIdx_perm hn).symm.append_right _
    have hb : (f.step (now, .release place)).proxy.balancer = f.proxy.balancer.release l := by
      simp only [step, hl]
      rfl
    rw [Counted, hb]
    exact (Counts.perm h hp).release

theorem counted_engage (h : Counted f) (n draw : Nat) :
    Counted (f.step (now, .engage n draw)) := by
  have hstep : f.step (now, .engage n draw) =
      { f with proxy := (f.engagement n now draw).state } := rfl
  rw [hstep]
  rcases f.engagement_cases n now draw with
    ⟨e, i, he, hread, hi, hstate, -⟩ | ⟨e, he, hread, hstate, -⟩ | ⟨-, hstate, -⟩
  · rw [hstate]
    obtain ⟨rest, hbefore, hafter⟩ := out_set he (.waiting ⟨i⟩)
    rw [hread] at hbefore
    exact (Counts.select _ _ (h.perm hbefore) hi).perm hafter.symm
  · rw [hstate]
    exact counted_perform h he (by rw [hread]; rfl) (.inl rfl)
  · rw [hstate]
    exact h

theorem counted_act (h : Counted f) (n : Nat) (a : Proxy.Act) :
    Counted (f.step (now, .act n a)) := by
  have hstep : f.step (now, .act n a) = { f with proxy := f.proxy.act n now a } := rfl
  rw [hstep]
  cases he : f.proxy.exchanges[n]? with
  | none =>
    rw [Proxy.act_of_none a he]
    exact h
  | some e =>
    rw [Proxy.act_eq a he]
    cases hm : a.move? e.stage with
    | none => exact h
    | some m =>
      obtain ⟨hlease, hone, -⟩ := Proxy.move?_spec hm
      exact counted_perform h he hlease hone

theorem counted_step (h : Counted f) (e : Nat × Call) : Counted (f.step e) := by
  obtain ⟨now, c⟩ := e
  cases c with
  | change moment c => exact h
  | select service draw => exact counted_select h service draw
  | release place => exact counted_release h place
  | start service =>
    have hout : (f.step (now, .start service)).out = f.out := by
      simp [out, step, Proxy.start, Stage.lease?]
    rw [Counted, hout]
    exact h
  | engage n draw => exact counted_engage h n draw
  | act n a => exact counted_act h n a

theorem counted_run (h : Counted f) (calls : List (Nat × Call)) : Counted (f.run calls) := by
  induction calls generalizing f with
  | nil => exact h
  | cons e rest ih => exact ih (counted_step h e)

theorem out_eq_nil (hleases : f.leases = []) (hnone : ∀ n, f.leaseOf n = none) : f.out = [] := by
  rw [out, hleases, List.nil_append, List.filterMap_eq_nil_iff]
  intro e he
  obtain ⟨n, hn⟩ := List.getElem?_of_mem he
  have hlease := hnone n
  rwa [leaseOf, Proxy.stage?_eq hn] at hlease

/-! ### Giving back -/

theorem lease_of_back {a : Proxy.Act} {s : Stage} {m : Proxy.Move} {l : Lease}
    (hm : a.move? s = some m) (hback : m.back = some l) : s.lease? = some l := by
  obtain ⟨hlease, -⟩ := Proxy.move?_spec hm
  rw [hlease, hback, Option.some_or]

/-- A lease that is given back has been out, and the balancer releases it. -/
theorem release_of_returned {l : Lease} {c : Call} (h : f.returned c = some l) (now : Nat) :
    l ∈ f.out ∧ (f.step (now, c)).proxy.balancer = f.proxy.balancer.release l := by
  cases c with
  | release place =>
    have hl : f.leases[place]? = some l := h
    refine ⟨List.mem_append_left _ (List.mem_of_getElem? hl), ?_⟩
    simp only [step, hl]
    rfl
  | act n a =>
    obtain ⟨e, he, hmove⟩ := Option.bind_eq_some_iff.1 h
    obtain ⟨m, hm, hback⟩ := Option.bind_eq_some_iff.1 hmove
    refine ⟨List.mem_append_right _ (List.mem_filterMap.2
      ⟨e, List.mem_of_getElem? he, lease_of_back hm hback⟩), ?_⟩
    rw [act_proxy, Proxy.act_eq a he, hm]
    simp [Proxy.perform, hback]
  | _ => cases h

/-- A call that gives nothing back lowers no count. -/
theorem held_le_of_returned_none {c : Call} (h : f.returned c = none) (now : Nat) (id : String) :
    f.proxy.balancer.held id ≤ (f.step (now, c)).proxy.balancer.held id := by
  have hselect (service : String) (draw : Nat) :
      f.proxy.balancer.held id ≤ (f.choice service draw).state.held id := by
    cases hi : f.proxy.balancer.choose service draw (f.registry.healthy service) with
    | none =>
      exact Nat.le_of_eq (by rw [choice, Balancer.select_of_none _ _ _ hi])
    | some i =>
      rw [choice, Balancer.held_select _ _ _ hi]
      split <;> omega
  cases c with
  | change moment c => exact Nat.le_refl _
  | select service draw => exact hselect service draw
  | release place =>
    have hl : f.leases[place]? = none := h
    simp [step, hl]
  | start service => exact Nat.le_refl _
  | engage n draw =>
    rw [engage_proxy]
    cases hanswer : (f.engagement n now draw).answer with
    | ok l =>
      obtain ⟨e, -, -, -, hstate⟩ := engagement_of_ok hanswer
      rw [hstate]
      exact hselect e.service draw
    | error fault =>
      exact Nat.le_of_eq (by rw [engagement_of_error hanswer])
  | act n a =>
    rw [act_proxy]
    cases he : f.proxy.exchanges[n]? with
    | none =>
      exact Nat.le_of_eq (by rw [Proxy.act_of_none a he])
    | some e =>
      rw [Proxy.act_eq a he]
      cases hm : a.move? e.stage with
      | none => exact Nat.le_refl _
      | some m =>
        have hback : m.back = none := by simpa [returned, he, hm] using h
        simp [Proxy.perform, hback]

/-! ### The lease of an exchange -/

/-- What a call does to an exchange. -/
def Call.on? (n : Nat) : Call → Option Proxy.Act
  | act k a => if k = n then some a else none
  | _ => none

/-- Whether the response of an exchange is passed on, or the rest of it is not wanted. -/
def passesOn (n : Nat) (calls : List (Nat × Call)) : Bool :=
  calls.any fun e =>
    match e.2.on? n with
    | some .finish => true
    | _ => false

/-- Whether an exchange that has taken a lease gives it back in the calls that follow: the
request fails, or the caller goes away, or the response comes and is passed on. -/
def givesBack (n : Nat) : List (Nat × Call) → Bool
  | [] => false
  | e :: rest =>
    match e.2.on? n with
    | some (.giveUp _) | some .cancel => true
    | some (.relay _) => passesOn n rest
    | _ => givesBack n rest

theorem stage?_of_set {p q : Proxy} {k : Nat} {x : Exchange} {s : Stage}
    (h : p.stage? n = some s) (hq : q.exchanges = p.exchanges.set k x) :
    q.stage? n = some (if k = n then x.stage else s) := by
  obtain ⟨e, he, rfl⟩ := Option.map_eq_some_iff.1 h
  obtain ⟨hn, -⟩ := List.getElem?_eq_some_iff.1 he
  rw [Proxy.stage?, hq, List.getElem?_set]
  by_cases hk : k = n
  · simp [hk, hn]
  · simp [hk, he]

/-- What an act makes of the stage of an exchange. -/
theorem stage?_act {s : Stage} (h : f.proxy.stage? n = some s) (now k : Nat) (a : Proxy.Act) :
    (f.step (now, .act k a)).proxy.stage? n =
      some (if k = n then ((a.move? s).map (·.stage)).getD s else s) := by
  rw [act_proxy]
  cases he : f.proxy.exchanges[k]? with
  | none =>
    have hk : k ≠ n := by
      rintro rfl
      simp [Proxy.stage?, he] at h
    rw [Proxy.act_of_none a he, h, if_neg hk]
  | some e =>
    rw [Proxy.act_eq a he]
    by_cases hk : k = n
    · have hs : e.stage = s := by
        subst hk
        exact Option.some.inj ((Proxy.stage?_eq he).symm.trans h)
      rw [if_pos hk, ← hs]
      cases hm : a.move? e.stage with
      | none => rw [hs]; exact h
      | some m => exact (stage?_of_set h rfl).trans (by rw [if_pos hk]; rfl)
    · rw [if_neg hk]
      cases hm : a.move? e.stage with
      | none => exact h
      | some m => exact (stage?_of_set h rfl).trans (by rw [if_neg hk])

/-- What the choice of an instance makes of the stage of an exchange. -/
theorem stage?_engage {s : Stage} (h : f.proxy.stage? n = some s) (now k draw : Nat) :
    (f.step (now, .engage k draw)).proxy.stage? n =
      some (if k = n ∧ s = .reading then
        match (f.engagement n now draw).answer with
        | .ok l => .waiting l
        | .error _ => .over
      else s) := by
  rw [engage_proxy]
  by_cases hk : k = n
  · subst hk
    have hreading {e : Exchange} (he : f.proxy.exchanges[k]? = some e)
        (hread : e.stage = .reading) : s = .reading :=
      hread ▸ Option.some.inj (h.symm.trans (Proxy.stage?_eq he))
    rcases f.engagement_cases k now draw with
      ⟨e, i, he, hread, -, hstate, hanswer⟩ | ⟨e, he, hread, hstate, hanswer⟩ | ⟨hnot, hstate, -⟩
    · rw [if_pos ⟨rfl, hreading he hread⟩, hanswer, stage?_of_set h (by rw [hstate]), if_pos rfl]
    · rw [if_pos ⟨rfl, hreading he hread⟩, hanswer, stage?_of_set h (by rw [hstate]; rfl),
        if_pos rfl]
    · have hs : s ≠ .reading := by
        rintro rfl
        obtain ⟨e, he, hread⟩ := Option.map_eq_some_iff.1 h
        exact hnot e he hread
      rw [hstate, if_neg fun hc => hs hc.2]
      exact h
  · rw [if_neg fun hc => hk hc.1]
    rcases f.engagement_cases k now draw with
      ⟨e, i, -, -, -, hstate, -⟩ | ⟨e, -, -, hstate, -⟩ | ⟨-, hstate, -⟩
    · rw [stage?_of_set h (by rw [hstate]), if_neg hk]
    · rw [stage?_of_set h (by rw [hstate]; rfl), if_neg hk]
    · rw [hstate]
      exact h

theorem stage?_start {s : Stage} (h : f.proxy.stage? n = some s) (now : Nat) (service : String) :
    (f.step (now, .start service)).proxy.stage? n = some s := by
  obtain ⟨e, he, rfl⟩ := Option.map_eq_some_iff.1 h
  obtain ⟨hn, -⟩ := List.getElem?_eq_some_iff.1 he
  simp [step, Proxy.start, Proxy.stage?, List.getElem?_append_left hn, he]

theorem stage?_release (now place : Nat) :
    (f.step (now, .release place)).proxy.stage? n = f.proxy.stage? n := by
  simp only [step]
  split <;> rfl

/-- Once the body has been read, only an act on the exchange brings it to another stage. -/
theorem stage?_step {s : Stage} (h : f.proxy.stage? n = some s) (hs : s ≠ .reading)
    (e : Nat × Call) :
    (f.step e).proxy.stage? n =
      some ((((e.2.on? n).bind (·.move? s)).map (·.stage)).getD s) := by
  obtain ⟨now, c⟩ := e
  cases c with
  | change moment c => exact h
  | select service draw => exact h
  | release place => rw [stage?_release]; exact h
  | start service => exact stage?_start h now service
  | engage k draw => rw [stage?_engage h, if_neg fun hr => hs hr.2]; rfl
  | act k a =>
    rw [stage?_act h]
    dsimp only [Call.on?]
    split <;> rfl

/-! ### From the choice to the end -/

theorem leaseOf_of_stage {s : Stage} (h : f.proxy.stage? n = some s) :
    f.leaseOf n = s.lease? := by
  rw [leaseOf, h]
  rfl

theorem leaseOf_run_of_over (h : f.proxy.stage? n = some .over) (calls : List (Nat × Call)) :
    (f.run calls).leaseOf n = none := by
  induction calls generalizing f with
  | nil => exact leaseOf_of_stage h
  | cons e rest ih =>
    have hstep := stage?_step h nofun e
    have hstill : (e.2.on? n).bind (·.move? .over) = none := by
      cases e.2.on? n with
      | none => rfl
      | some a => cases a <;> rfl
    rw [hstill] at hstep
    exact ih hstep

/-- A response that has come holds its lease until it has been passed on. -/
theorem leaseOf_run_of_relaying {l : Lease} (h : f.proxy.stage? n = some (.relaying l))
    (calls : List (Nat × Call)) :
    (f.run calls).leaseOf n = if passesOn n calls then none else some l := by
  induction calls generalizing f with
  | nil => exact leaseOf_of_stage h
  | cons e rest ih =>
    have hstep := stage?_step h nofun e
    rw [run_cons, passesOn, List.any_cons]
    rcases ha : e.2.on? n with _ | a
    · rw [ha] at hstep
      exact ih hstep
    · rw [ha] at hstep
      cases a with
      | finish => exact leaseOf_run_of_over hstep rest
      | _ => exact ih hstep

/-- A request that waits for its response holds its lease until it gives it back. -/
theorem leaseOf_run_of_waiting {l : Lease} (h : f.proxy.stage? n = some (.waiting l))
    (calls : List (Nat × Call)) :
    (f.run calls).leaseOf n = if givesBack n calls then none else some l := by
  induction calls generalizing f with
  | nil => exact leaseOf_of_stage h
  | cons e rest ih =>
    have hstep := stage?_step h nofun e
    rw [run_cons, givesBack]
    rcases ha : e.2.on? n with _ | a
    · rw [ha] at hstep
      exact ih hstep
    · rw [ha] at hstep
      cases a with
      | relay status => exact leaseOf_run_of_relaying hstep rest
      | giveUp fault => exact leaseOf_run_of_over hstep rest
      | cancel => exact leaseOf_run_of_over hstep rest
      | _ => exact ih hstep

/-- An exchange whose body has been read does not come back to reading. -/
theorem stage?_run {s : Stage} (h : f.proxy.stage? n = some s) (hs : s ≠ .reading)
    (calls : List (Nat × Call)) :
    ∃ s', (f.run calls).proxy.stage? n = some s' ∧ s' ≠ .reading := by
  induction calls generalizing f s with
  | nil => exact ⟨s, h, hs⟩
  | cons e rest ih =>
    refine ih (stage?_step h hs e) ?_
    cases hm : (e.2.on? n).bind (·.move? s) with
    | none => exact hs
    | some m =>
      obtain ⟨a, -, ha⟩ := Option.bind_eq_some_iff.1 hm
      obtain ⟨-, -, -, hclosed⟩ := Proxy.move?_spec ha
      intro hread
      have hopen : m.stage = .reading := hread
      simp [hopen, Stage.isOpen] at hclosed

/-- An exchange for which an instance is found has been reading and waits from now on. -/
theorem waiting_of_engaged {draw : Nat} {l : Lease} (h : (f.engagement n now draw).answer = .ok l) :
    f.proxy.stage? n = some .reading ∧
      (f.step (now, .engage n draw)).proxy.stage? n = some (.waiting l) := by
  obtain ⟨e, he, hread, -⟩ := engagement_of_ok h
  have hread : f.proxy.stage? n = some .reading := by rw [Proxy.stage?_eq he, hread]
  refine ⟨hread, ?_⟩
  rw [stage?_engage hread, if_pos ⟨rfl, rfl⟩, h]

/-- An exchange begins without a lease. -/
theorem leaseOf_start (now : Nat) (service : String) :
    (f.step (now, .start service)).leaseOf n = f.leaseOf n := by
  rw [leaseOf, leaseOf]
  simp only [step, Proxy.start, Proxy.stage?]
  rcases Nat.lt_trichotomy n f.proxy.exchanges.length with hlt | rfl | hlt
  · rw [List.getElem?_append_left hlt]
  · simp [Stage.lease?]
  · rw [List.getElem?_eq_none (by rw [List.length_append]; exact hlt),
      List.getElem?_eq_none (Nat.le_of_lt hlt)]

theorem stage?_none_of_set {p q : Proxy} {k : Nat} {x : Exchange} (h : p.stage? n = none)
    (hq : q.exchanges = p.exchanges.set k x) : q.stage? n = none := by
  rw [Proxy.stage?, Option.map_eq_none_iff, List.getElem?_eq_none_iff] at h ⊢
  rwa [hq, List.length_set]

/-- What is done to an exchange that has not begun gives it no lease. -/
theorem leaseOf_step_of_none (h : f.proxy.stage? n = none) (e : Nat × Call) :
    (f.step e).leaseOf n = none := by
  have hnone : f.leaseOf n = none := by rw [leaseOf, h]; rfl
  obtain ⟨now, c⟩ := e
  cases c with
  | change moment c => exact hnone
  | select service draw => exact hnone
  | release place => rw [leaseOf, stage?_release]; exact hnone
  | start service => rw [leaseOf_start, hnone]
  | engage k draw =>
    rw [leaseOf, engage_proxy]
    rcases f.engagement_cases k now draw with
      ⟨e, i, -, -, -, hstate, -⟩ | ⟨e, -, -, hstate, -⟩ | ⟨-, hstate, -⟩
    · rw [stage?_none_of_set h (by rw [hstate])]
      rfl
    · rw [stage?_none_of_set h (by rw [hstate]; rfl)]
      rfl
    · rw [hstate]
      exact hnone
  | act k a =>
    rw [leaseOf, act_proxy]
    cases he : f.proxy.exchanges[k]? with
    | none => rw [Proxy.act_of_none a he]; exact hnone
    | some e =>
      rw [Proxy.act_eq a he]
      cases hm : a.move? e.stage with
      | none => exact hnone
      | some m => rw [Option.map_some, Option.getD_some, stage?_none_of_set h rfl]; rfl

/-- A lease comes to an exchange by the choice of an instance only. -/
theorem engaged_of_leaseOf {l : Lease} (e : Nat × Call) (hnone : f.leaseOf n = none)
    (h : (f.step e).leaseOf n = some l) :
    ∃ draw, e.2 = .engage n draw ∧ (f.engagement n e.1 draw).answer = .ok l := by
  cases hs : f.proxy.stage? n with
  | none => exact absurd ((leaseOf_step_of_none hs e).symm.trans h) nofun
  | some s =>
    have hs' : s.lease? = none := (leaseOf_of_stage hs).symm.trans hnone
    obtain ⟨now, c⟩ := e
    cases c with
    | change moment c => exact absurd (hnone.symm.trans h) nofun
    | select service draw => exact absurd (hnone.symm.trans h) nofun
    | release place =>
      rw [leaseOf, stage?_release] at h
      exact absurd (hnone.symm.trans h) nofun
    | start service =>
      rw [leaseOf_start] at h
      exact absurd (hnone.symm.trans h) nofun
    | engage k draw =>
      have hafter := (leaseOf_of_stage (stage?_engage hs now k draw)).symm.trans h
      split at hafter
      · rename_i hread
        obtain ⟨rfl, -⟩ := hread
        refine ⟨draw, rfl, ?_⟩
        cases hanswer : (f.engagement k now draw).answer with
        | ok l' => rw [hanswer] at hafter; exact congrArg Except.ok (Option.some.inj hafter)
        | error fault => rw [hanswer] at hafter; cases hafter
      · exact absurd (hs'.symm.trans hafter) nofun
    | act k a =>
      have hafter := (leaseOf_of_stage (stage?_act hs now k a)).symm.trans h
      split at hafter
      · cases hm : a.move? s with
        | none => rw [hm] at hafter; exact absurd (hs'.symm.trans hafter) nofun
        | some m =>
          obtain ⟨hlease, -⟩ := Proxy.move?_spec hm
          have hnew := (Option.or_eq_none_iff.1 (hlease.symm.trans hs')).2
          rw [hm] at hafter
          exact absurd (hnew.symm.trans hafter) nofun
      · exact absurd (hs'.symm.trans hafter) nofun

/-- An exchange holds a lease just when it has taken it and not given it back since. -/
theorem leaseOf_run_eq_some_iff (hnone : f.leaseOf n = none) (calls : List (Nat × Call))
    (l : Lease) :
    (f.run calls).leaseOf n = some l ↔
      ∃ before t draw after, calls = before ++ (t, .engage n draw) :: after ∧
        ((f.run before).engagement n t draw).answer = .ok l ∧ givesBack n after = false := by
  induction calls generalizing f with
  | nil => simp [hnone]
  | cons e rest ih =>
    rw [run_cons]
    cases hl : (f.step e).leaseOf n with
    | none =>
      rw [ih hl]
      constructor
      · rintro ⟨before, t, draw, after, rfl, hanswer, hkept⟩
        exact ⟨e :: before, t, draw, after, rfl, hanswer, hkept⟩
      · rintro ⟨before, t, draw, after, hcalls, hanswer, hkept⟩
        cases before with
        | nil =>
          obtain ⟨rfl, rfl⟩ := List.cons.inj hcalls
          have hwait := leaseOf_of_stage (waiting_of_engaged hanswer).2
          exact absurd (hwait.symm.trans hl) nofun
        | cons e' before =>
          obtain ⟨rfl, rfl⟩ := List.cons.inj hcalls
          exact ⟨before, t, draw, after, rfl, hanswer, hkept⟩
    | some l' =>
      obtain ⟨draw, he, hanswer⟩ := engaged_of_leaseOf e hnone hl
      obtain ⟨t, c⟩ := e
      cases he
      have hwait := (waiting_of_engaged hanswer).2
      rw [leaseOf_run_of_waiting hwait]
      constructor
      · intro h
        split at h
        · cases h
        · rename_i hkept
          cases h
          exact ⟨[], t, draw, rest, rfl, hanswer, by simpa using hkept⟩
      · rintro ⟨before, t', draw', after, hcalls, hanswer', hkept⟩
        cases before with
        | nil =>
          obtain ⟨heq, rfl⟩ := List.cons.inj hcalls
          cases heq
          rw [run_nil, hanswer] at hanswer'
          cases hanswer'
          rw [hkept]
          rfl
        | cons e' before =>
          obtain ⟨rfl, rfl⟩ := List.cons.inj hcalls
          obtain ⟨s, hs, hread⟩ := stage?_run hwait nofun before
          have := (waiting_of_engaged hanswer').1
          exact absurd (Option.some.inj (hs.symm.trans this)) hread

end Switchyard.Forwarding
