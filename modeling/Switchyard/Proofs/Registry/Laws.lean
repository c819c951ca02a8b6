import Mathlib.Tactic.Common
import Switchyard.Registry.Store

/-! One law for each change of the registry: what it answers, and what can be looked up
after it. A registration concerns the one id that it is stored under, a deregistration
and the result of a probe the one id that they name, and every other look-up stays as it
was. -/
namespace Switchyard.Registry

variable {r : Registry} {now : Instant} {q : Registration} {id : String} {healthy : Bool}

/-! ### Registration -/

/-- The id that a registration is stored under. -/
def idFor (r : Registry) (now : Instant) (q : Registration) : String :=
  q.explicitId.getD (freshId r.records q.name now.millis)

/-- The record that a registration stores. -/
def newRecord (r : Registry) (now : Instant) (q : Registration) : Instance :=
  { id := r.idFor now q, name := q.name, address := q.address, port := q.port,
    status := .unknown, lastSeen := now, metadata := q.metadata, failures := 0,
    registration := r.registrations }

theorem register_of_defect {d : Defect} (h : q.defect? = some d) :
    r.register now q = ⟨r, .error d, []⟩ := by
  simp only [register, h]

theorem register_of_sound (h : q.defect? = none) :
    r.register now q =
      ⟨{ r with
          records := r.records.insert (r.idFor now q) (r.newRecord now q)
          registrations := (r.registrations + 1) % Numeric.limit64 }, .ok (r.idFor now q),
        [.registered (r.idFor now q) q.name q.address q.port
          (r.records.contains (r.idFor now q))]⟩ := by
  unfold register newRecord idFor
  rw [h]
  cases q.explicitId <;> rfl

theorem get?_register_of_sound (h : q.defect? = none) (other : String) :
    (r.register now q).state.get? other =
      if other = r.idFor now q then some (r.newRecord now q) else r.get? other := by
  rw [register_of_sound h]
  exact Keyed.get?_insert _ _ _ _

/-! ### Deregistration -/

theorem deregister_answer : (r.deregister id).answer = (r.get? id).isSome := by
  unfold deregister
  split
  · rename_i i hi
    rw [hi]; rfl
  · rename_i hi
    rw [hi]; rfl

theorem get?_deregister (other : String) :
    (r.deregister id).state.get? other = if other = id then none else r.get? other := by
  unfold deregister
  split
  · exact Keyed.get?_erase _ _ _
  · rename_i hi
    split
    · rename_i heq
      rw [heq]; exact hi
    · rfl

/-! ### The result of a probe -/

theorem fold_of_absent (h : r.get? id = none) : r.fold now id healthy = ⟨r, .missing, []⟩ := by
  simp only [fold, h]

theorem fold_of_evicts {i : Instance} (h : r.get? id = some i)
    (he : r.evicts (probed now healthy i) = true) :
    r.fold now id healthy =
      ⟨{ r with records := r.records.erase id }, .evicted (probed now healthy i).failures,
        [.evicted id i.name (probed now healthy i).failures]⟩ := by
  simp only [fold, h, if_pos he]

theorem fold_of_keeps {i : Instance} (h : r.get? id = some i)
    (he : ¬ r.evicts (probed now healthy i) = true) :
    r.fold now id healthy =
      ⟨{ r with records := r.records.insert id (probed now healthy i) },
        if i.status = (probed now healthy i).status then .unchanged (probed now healthy i).status
        else .transition i.status (probed now healthy i).status, []⟩ := by
  simp only [fold, h, if_neg he]

/-- What the result of a probe makes of a record: the record after it, or nothing when it
evicts. -/
def afterProbe (r : Registry) (now : Instant) (healthy : Bool) (i : Instance) : Option Instance :=
  if r.evicts (probed now healthy i) then none else some (probed now healthy i)

theorem get?_fold (other : String) :
    (r.fold now id healthy).state.get? other =
      if other = id then (r.get? id).bind (r.afterProbe now healthy) else r.get? other := by
  cases h : r.get? id with
  | none =>
    rw [fold_of_absent h, Option.bind_none]
    split
    · rename_i heq
      rw [heq]; exact h
    · rfl
  | some i =>
    rw [Option.bind_some, afterProbe]
    by_cases he : r.evicts (probed now healthy i) = true
    · rw [fold_of_evicts h he, if_pos he]
      exact Keyed.get?_erase _ _ _
    · rw [fold_of_keeps h he, if_neg he]
      exact Keyed.get?_insert _ _ _ _

/-- A record that is there takes every result that names it. -/
theorem fold_answer_of_held (now : Instant) (healthy : Bool) {i : Instance}
    (h : r.get? id = some i) :
    (r.fold now id healthy).answer ≠ .missing ∧ (r.fold now id healthy).answer ≠ .stale := by
  by_cases he : r.evicts (probed now healthy i) = true
  · rw [fold_of_evicts h he]
    exact ⟨nofun, nofun⟩
  · rw [fold_of_keeps h he]
    dsimp only
    split <;> exact ⟨nofun, nofun⟩

/-- The result of a probe creates no record. -/
theorem fold_creates_none {other : String} (h : r.get? other = none) :
    (r.fold now id healthy).state.get? other = none := by
  rw [get?_fold]
  split
  · rename_i heq
    rw [← heq, h, Option.bind_none]
  · exact h

/-- A record is gone after a result just when it was missing or has been evicted. -/
theorem get?_fold_eq_none_iff (r : Registry) (now : Instant) (id : String) (healthy : Bool) :
    (r.fold now id healthy).state.get? id = none ↔
      (r.fold now id healthy).answer = .missing ∨
        ∃ n, (r.fold now id healthy).answer = .evicted n := by
  rw [get?_fold, if_pos rfl]
  cases h : r.get? id with
  | none =>
    rw [fold_of_absent h]
    simp
  | some i =>
    rw [Option.bind_some, afterProbe]
    by_cases he : r.evicts (probed now healthy i) = true
    · rw [if_pos he, fold_of_evicts h he]
      simp
    · obtain ⟨hmissing, -⟩ := fold_answer_of_held now healthy h
      rw [if_neg he]
      simp only [hmissing, false_or, reduceCtorEq, false_iff, not_exists]
      intro n
      rw [fold_of_keeps h he]
      dsimp only
      split <;> nofun

theorem foldProbed_of_absent {copy : Instance} (h : r.get? copy.id = none) :
    r.foldProbed now copy healthy = ⟨r, .missing, []⟩ := by
  simp only [foldProbed, h]

theorem foldProbed_of_other {copy i : Instance} (h : r.get? copy.id = some i)
    (hne : i.registration ≠ copy.registration) :
    r.foldProbed now copy healthy = ⟨r, .stale, []⟩ := by
  simp only [foldProbed, h, if_neg hne]

theorem foldProbed_of_same {copy i : Instance} (h : r.get? copy.id = some i)
    (heq : i.registration = copy.registration) :
    r.foldProbed now copy healthy = r.fold now copy.id healthy := by
  simp only [foldProbed, h, if_pos heq]

/-- A result that is not dropped is folded as the result of probing the id would be. -/
theorem foldProbed_eq_or (r : Registry) (now : Instant) (copy : Instance) (healthy : Bool) :
    r.foldProbed now copy healthy = r.fold now copy.id healthy ∨
      r.foldProbed now copy healthy = ⟨r, .stale, []⟩ := by
  cases h : r.get? copy.id with
  | none => rw [foldProbed_of_absent h, fold_of_absent h]; exact Or.inl rfl
  | some i =>
    by_cases heq : i.registration = copy.registration
    · exact Or.inl (foldProbed_of_same h heq)
    · exact Or.inr (foldProbed_of_other h heq)

theorem foldProbed_creates_none {copy : Instance} {other : String} (h : r.get? other = none) :
    (r.foldProbed now copy healthy).state.get? other = none := by
  rcases foldProbed_eq_or r now copy healthy with he | he
  · rw [he]
    exact fold_creates_none h
  · rw [he]
    exact h

/-! ### What no probe changes -/

theorem fold_frame :
    (r.fold now id healthy).state.threshold = r.threshold ∧
      (r.fold now id healthy).state.registrations = r.registrations := by
  cases h : r.get? id with
  | none => rw [fold_of_absent h]; exact ⟨rfl, rfl⟩
  | some i =>
    by_cases he : r.evicts (probed now healthy i) = true
    · rw [fold_of_evicts h he]; exact ⟨rfl, rfl⟩
    · rw [fold_of_keeps h he]; exact ⟨rfl, rfl⟩

end Switchyard.Registry
