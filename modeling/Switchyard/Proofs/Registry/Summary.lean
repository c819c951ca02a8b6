import Mathlib.Algebra.Ring.Nat
import Switchyard.Proofs.Registry.Generations

/-! A record is the summary of its life. Its name and place are those of the request that
began it; its status, its failures and the moment it was last seen are read off the
findings since, and nothing else. With a threshold the failures at the end stay below it:
the finding that makes them as many as the threshold removes the record, and no other
finding does. -/
namespace Switchyard

open Registry (Change)

/-! ### Findings -/

namespace Findings

/-- The status that the last finding gives. -/
def status (h : List Finding) : Status :=
  match h.getLast? with
  | none => .unknown
  | some f => if f.healthy then .healthy else .unhealthy

/-- The failures at the end, after the last success. -/
def failures (h : List Finding) : Nat := (h.reverse.takeWhile fun f => !f.healthy).length

/-- The moment of the last success, or `since` without one. -/
def lastSeen (since : Instant) (h : List Finding) : Instant :=
  match (h.filter (·.healthy)).getLast? with
  | none => since
  | some f => f.moment

/-- What is answered to one finding more. -/
def answer (threshold : UInt32) (h : List Finding) (f : Finding) : Folded :=
  if 0 < threshold ∧ failures (h ++ [f]) = threshold.toNat then .evicted threshold
  else if status h = status (h ++ [f]) then .unchanged (status h)
  else .transition (status h) (status (h ++ [f]))

@[simp] theorem status_append (h : List Finding) (f : Finding) :
    status (h ++ [f]) = if f.healthy then .healthy else .unhealthy := by
  rw [status, List.getLast?_append, List.getLast?_singleton]
  rfl

theorem failures_append (h : List Finding) (f : Finding) :
    failures (h ++ [f]) = if f.healthy then 0 else failures h + 1 := by
  rw [failures, List.reverse_append, List.reverse_singleton, List.singleton_append,
    List.takeWhile_cons]
  cases f.healthy <;> rfl

theorem lastSeen_append (since : Instant) (h : List Finding) (f : Finding) :
    lastSeen since (h ++ [f]) = if f.healthy then f.moment else lastSeen since h := by
  rw [lastSeen, List.filter_append, List.filter_cons, List.filter_nil]
  cases f.healthy with
  | true => rw [if_pos rfl, if_pos rfl, List.getLast?_append, List.getLast?_singleton]; rfl
  | false => rw [if_neg nofun, if_neg nofun, List.append_nil]; rfl

end Findings

/-! ### One record -/

/-- What a record says of its life. -/
structure Summary (threshold : UInt32) (id : String) (l : Life) (i : Instance) : Prop where
  own : i.id = id
  chosen : ∀ given, l.request.explicitId = some given → given = id
  name : i.name = l.request.name
  address : i.address = l.request.address
  port : i.port = l.request.port
  metadata : i.metadata = l.request.metadata
  status : i.status = Findings.status l.findings
  failures : i.failures.toNat = min (Findings.failures l.findings) (2 ^ 32 - 1)
  lastSeen : i.lastSeen = Findings.lastSeen l.since l.findings
  below : 0 < threshold → Findings.failures l.findings < threshold.toNat

theorem nextFailures_toNat (n : UInt32) :
    (Instance.nextFailures n).toNat = min (n.toNat + 1) (2 ^ 32 - 1) := by
  have hn := n.toNat_lt
  unfold Instance.nextFailures
  split
  · rename_i heq
    rw [heq]
    rfl
  · rename_i hne
    have hlt : n.toNat ≠ 0xFFFFFFFF := fun h => hne (UInt32.toNat_inj.1 h)
    rw [UInt32.toNat_add, UInt32.toNat_one, Nat.mod_eq_of_lt (by omega)]
    omega

namespace Summary

variable {threshold : UInt32} {id : String} {l : Life} {i : Instance}

theorem of_newRecord {r : Registry} {now : Instant} {q : Registration} (call : Nat)
    (given : r.idFor now q = id) :
    Summary threshold id ⟨call, now, q, []⟩ (r.newRecord now q) where
  own := given
  chosen x hx := by
    rw [← given, Registry.idFor, hx]
    rfl
  name := rfl
  address := rfl
  port := rfl
  metadata := rfl
  status := rfl
  failures := rfl
  lastSeen := rfl
  below h := UInt32.lt_iff_toNat_lt.1 h

theorem probed_status (now : Instant) (healthy : Bool) (i : Instance) :
    (Registry.probed now healthy i).status = if healthy then .healthy else .unhealthy := by
  cases healthy <;> rfl

theorem probed_failures (s : Summary threshold id l i) (now : Instant) (healthy : Bool) :
    (Registry.probed now healthy i).failures.toNat =
      min (Findings.failures (l.findings ++ [⟨now, healthy⟩])) (2 ^ 32 - 1) := by
  rw [Findings.failures_append]
  cases healthy with
  | true => rfl
  | false =>
    show (Instance.nextFailures i.failures).toNat = _
    rw [nextFailures_toNat, s.failures, if_neg nofun]
    omega

/-- A finding evicts just when it makes the failures at the end as many as the threshold. -/
theorem evicts_iff (s : Summary threshold id l i) {r : Registry} (hr : r.threshold = threshold)
    (now : Instant) (healthy : Bool) :
    r.evicts (Registry.probed now healthy i) = true ↔
      0 < threshold ∧ Findings.failures (l.findings ++ [⟨now, healthy⟩]) = threshold.toNat := by
  have hcount := s.probed_failures now healthy
  have ht := threshold.toNat_lt
  simp only [Registry.evicts, probed_status, hr, Bool.and_eq_true, decide_eq_true_eq,
    UInt32.le_iff_toNat_le, hcount, Findings.failures_append]
  cases healthy with
  | true =>
    refine ⟨fun h => absurd h.1.1 (by decide), fun h => ?_⟩
    have hpos := UInt32.lt_iff_toNat_lt.1 h.1
    exact absurd h.2 (Nat.ne_of_lt hpos)
  | false =>
    simp only [Bool.false_eq_true, ↓reduceIte, beq_self_eq_true, true_and]
    refine and_congr_right fun hpos => ?_
    have hb := s.below hpos
    omega

theorem after_probe (s : Summary threshold id l i) {r : Registry} (hr : r.threshold = threshold)
    {now : Instant} {healthy : Bool} (keeps : ¬ r.evicts (Registry.probed now healthy i) = true) :
    Summary threshold id { l with findings := l.findings ++ [⟨now, healthy⟩] }
      (Registry.probed now healthy i) where
  own := by rw [Chronicle.probed_id, s.own]
  chosen := s.chosen
  name := by cases healthy <;> exact s.name
  address := by cases healthy <;> exact s.address
  port := by cases healthy <;> exact s.port
  metadata := by cases healthy <;> exact s.metadata
  status := by rw [probed_status, Findings.status_append]
  failures := s.probed_failures now healthy
  lastSeen := by
    rw [Findings.lastSeen_append]
    cases healthy with
    | true => rfl
    | false => exact s.lastSeen
  below hpos := by
    have hne : Findings.failures (l.findings ++ [⟨now, healthy⟩]) ≠ threshold.toNat :=
      fun h => keeps ((s.evicts_iff hr now healthy).2 ⟨hpos, h⟩)
    have hb := s.below hpos
    rw [Findings.failures_append] at hne ⊢
    cases healthy with
    | true => exact Nat.zero_lt_of_lt hb
    | false =>
      simp only [Bool.false_eq_true, ↓reduceIte] at hne ⊢
      omega

end Summary

/-! ### All records -/

namespace Chronicle

/-- The threshold stays, and every record is the summary of its life. -/
structure Summarized (threshold : UInt32) (w : Chronicle) : Prop where
  numbered : Numbered w
  threshold_eq : w.registry.threshold = threshold
  summary : ∀ id i l, w.registry.get? id = some i → w.lives id = some l →
    Summary threshold id l i

variable {threshold : UInt32} {w : Chronicle}

theorem threshold_step (w : Chronicle) (e : Instant × Change) :
    (w.step e).registry.threshold = w.registry.threshold := by
  obtain ⟨now, c⟩ := e
  cases c with
  | register q =>
    show (w.registry.register now q).state.threshold = _
    cases hd : q.defect? with
    | some d => rw [Registry.register_of_defect hd]
    | none => rw [Registry.register_of_sound hd]
  | deregister given =>
    show (w.registry.deregister given).state.threshold = _
    unfold Registry.deregister
    split <;> rfl
  | fold given healthy => exact Registry.fold_frame.1
  | foldProbed copy healthy =>
    show (w.registry.foldProbed now copy healthy).state.threshold = _
    rcases Registry.foldProbed_eq_or w.registry now copy healthy with he | he
    · rw [he]; exact Registry.fold_frame.1
    · rw [he]

theorem summary_step (h : Summarized threshold w) {e : Instant × Change} {id : String}
    {i? : Option Instance} {l? : Option Life} (ht : Turn w e id i? l?) :
    ∀ i l, i? = some i → l? = some l → Summary threshold id l i := by
  cases ht with
  | kept => exact h.summary id
  | created q call sound given =>
    intro i l hi hl
    cases hi
    cases hl
    exact Summary.of_newRecord w.calls given
  | heard j healthy held keeps =>
    intro i l hi hl
    cases hi
    obtain ⟨m, hm, rfl⟩ := Option.map_eq_some_iff.1 hl
    exact (h.summary id j m held hm).after_probe h.threshold_eq keeps
  | gone j held => exact nofun

theorem summarized_start (threshold : UInt32) : Summarized threshold (start threshold) :=
  ⟨numbered_start threshold, rfl, nofun⟩

theorem summarized_run (h : Summarized threshold w) (calls : List (Instant × Change)) :
    Summarized threshold (w.run calls) := by
  induction calls generalizing w with
  | nil => exact h
  | cons e rest ih =>
    exact ih ⟨numbered_step h.numbered e, (threshold_step w e).trans h.threshold_eq,
      fun id => summary_step h (turn w id e)⟩

/-- What is answered to a finding that is folded into a record. -/
theorem fold_answer (h : Summarized threshold w) {id : String} {i : Instance} {l : Life}
    (hi : w.registry.get? id = some i) (hl : w.lives id = some l) (now : Instant)
    (healthy : Bool) :
    (w.registry.fold now id healthy).answer =
      Findings.answer threshold l.findings ⟨now, healthy⟩ := by
  have s := h.summary id i l hi hl
  have hev := s.evicts_iff h.threshold_eq now healthy
  rw [Findings.answer]
  by_cases he : w.registry.evicts (Registry.probed now healthy i) = true
  · obtain ⟨hpos, hk⟩ := hev.1 he
    have ht := threshold.toNat_lt
    have hcount : (Registry.probed now healthy i).failures = threshold := by
      rw [← UInt32.toNat_inj, s.probed_failures now healthy, hk]
      omega
    rw [Registry.fold_of_evicts hi he, if_pos ⟨hpos, hk⟩, hcount]
  · rw [Registry.fold_of_keeps hi he, if_neg fun hk => he (hev.2 hk)]
    rw [Findings.status_append, ← s.status, Summary.probed_status]
    by_cases heq : i.status = if healthy then .healthy else .unhealthy
    · rw [if_pos heq, if_pos heq, ← heq]
    · rw [if_neg heq, if_neg heq]

/-- After any calls every record is the summary of its life. The next finding under an id
is answered by its life alone, and it removes the record just when it is answered so; no
other record changes. A result that is brought back with a copy is such a finding, or it
is stale and changes nothing. -/
theorem records_summarize_lives (threshold : UInt32) (calls : List (Instant × Change)) :
    let w := (start threshold).run calls
    (∀ id i, w.registry.get? id = some i →
      ∃ l, w.lives id = some l ∧ Summary threshold id l i) ∧
    (∀ now id healthy,
      let o := w.registry.fold now id healthy
      (o.answer = match w.lives id with
        | none => .missing
        | some l => Findings.answer threshold l.findings ⟨now, healthy⟩) ∧
      (o.state.get? id = none ↔ o.answer = .missing ∨ ∃ n, o.answer = .evicted n) ∧
      ∀ other, other ≠ id → o.state.get? other = w.registry.get? other) ∧
    ∀ now copy healthy,
      w.registry.foldProbed now copy healthy = w.registry.fold now copy.id healthy ∨
        w.registry.foldProbed now copy healthy = ⟨w.registry, .stale, []⟩ := by
  intro w
  have hw : Summarized threshold w := summarized_run (summarized_start threshold) calls
  refine ⟨fun id i hi => ?_, fun now id healthy => ⟨?_, ?_, fun other hne => ?_⟩, ?_⟩
  · obtain ⟨l, hl⟩ := hw.numbered.life_of_held hi
    exact ⟨l, hl, hw.summary id i l hi hl⟩
  · cases hi : w.registry.get? id with
    | none => rw [hw.numbered.lifeless_of_absent hi, Registry.fold_of_absent hi]
    | some i =>
      obtain ⟨l, hl⟩ := hw.numbered.life_of_held hi
      rw [hl]
      exact fold_answer hw hi hl now healthy
  · exact Registry.get?_fold_eq_none_iff w.registry now id healthy
  · rw [Registry.get?_fold, if_neg hne]
  · exact Registry.foldProbed_eq_or w.registry

/-- A success between two failures starts the count again, and the second failure after it
evicts. -/
theorem records_summarize_lives_evicting :
    let q := (Registration.new "db" "10.0.0.1" 5432).withId "db-1"
    let calls : List (Instant × Change) := [(⟨0, 0⟩, .register q), (⟨1, 0⟩, .fold "db-1" false),
      (⟨2, 0⟩, .fold "db-1" true), (⟨3, 0⟩, .fold "db-1" false)]
    let w := (start 2).run calls
    ∃ i l, w.registry.get? "db-1" = some i ∧ i.lastSeen = ⟨2, 0⟩ ∧ i.failures = 1 ∧
      w.lives "db-1" = some l ∧ Summary 2 "db-1" l i ∧
      (w.registry.fold ⟨4, 0⟩ "db-1" false).answer = .evicted 2 := by
  intro q calls w
  obtain ⟨hrecord, hanswer, -⟩ := records_summarize_lives 2 calls
  have hi : w.registry.get? "db-1" =
      some ⟨"db-1", "db", "10.0.0.1", 5432, .unhealthy, ⟨2, 0⟩, ∅, 1, 0⟩ := by decide +kernel
  obtain ⟨l, hl, s⟩ := hrecord "db-1" _ hi
  have hfindings : (w.lives "db-1").map Life.findings =
      some [⟨⟨1, 0⟩, false⟩, ⟨⟨2, 0⟩, true⟩, ⟨⟨3, 0⟩, false⟩] := by decide +kernel
  have hl' : w.lives "db-1" = some l := hl
  rw [hl', Option.map_some, Option.some.injEq] at hfindings
  refine ⟨_, l, hi, rfl, rfl, hl, s, (hanswer ⟨4, 0⟩ "db-1" false).1.trans ?_⟩
  rw [hl]
  dsimp only
  rw [hfindings]
  decide +kernel

end Chronicle

end Switchyard
