import Switchyard.Proofs.Registry.Generations

/-! Whether the record of an id is healthy, told from the calls and what is heard of them. A result
that reaches the record decides it, and a registration under the id, its deregistration and its
eviction leave it without a healthy record. No other call concerns it, so the last that did tells
how the id stands. -/
namespace Switchyard

/-- That a result reached the record of its id. -/
def Folded.landed : Folded → Bool
  | .transition .. | .unchanged _ | .evicted _ => true
  | .missing | .stale => false

namespace Registry

/-- The bearing of a call on an id, by what is heard of the call: whether the id holds a healthy
record from now on. A call that does not concern the id has none. -/
def Change.bearing (id : String) : Change → Echo → Option Bool
  | .register _, .registered (.ok given) => if given = id then some false else none
  | .deregister given, .deregistered found => if found ∧ given = id then some false else none
  | .fold given healthy, .folded a => if given = id ∧ a.landed then some healthy else none
  | .foldProbed copy healthy, .folded a => if copy.id = id ∧ a.landed then some healthy else none
  | _, _ => none

/-- Whether an id holds a healthy record. -/
def isUp (r : Registry) (id : String) : Bool := (r.get? id).any Instance.isHealthy

/-! ### One call -/

section Call

variable (r : Registry) (now : Instant) (id given : String) (healthy : Bool)

/-- The result of a probe makes a record what it says, or evicts it. -/
theorem afterProbe_any (i : Instance) :
    (r.afterProbe now healthy i).any Instance.isHealthy = healthy := by
  cases healthy with
  | true =>
    -- a healthy record is not evicted
    have hkeeps : r.afterProbe now true i = some (probed now true i) := if_neg nofun
    rw [hkeeps]
    rfl
  | false =>
    unfold afterProbe
    split <;> rfl

theorem fold_landed : (r.fold now id healthy).answer.landed = (r.get? id).isSome := by
  cases h : r.get? id with
  | none =>
    rw [fold_of_absent h]
    rfl
  | some i =>
    by_cases he : r.evicts (probed now healthy i) = true
    · rw [fold_of_evicts h he]
      rfl
    · rw [fold_of_keeps h he]
      dsimp only
      split <;> rfl

theorem isUp_fold :
    (r.fold now given healthy).state.isUp id =
      if given = id ∧ (r.fold now given healthy).answer.landed then healthy else r.isUp id := by
  rw [fold_landed, isUp, get?_fold]
  by_cases heq : given = id
  · subst heq
    rw [if_pos rfl]
    cases h : r.get? given with
    | none => simp [isUp, h]
    | some i => simp [afterProbe_any]
  · rw [if_neg (Ne.symm heq), if_neg fun hit => heq hit.1]
    rfl

theorem isUp_foldProbed (copy : Instance) :
    (r.foldProbed now copy healthy).state.isUp id =
      if copy.id = id ∧ (r.foldProbed now copy healthy).answer.landed then healthy
      else r.isUp id := by
  rcases foldProbed_eq_or r now copy healthy with h | h
  · rw [h]
    exact isUp_fold r now id copy.id healthy
  · rw [h]
    exact (if_neg fun hit => nomatch hit.2).symm

theorem isUp_register (q : Registration) :
    (r.register now q).state.isUp id =
      match (r.register now q).answer with
      | .ok given => if given = id then false else r.isUp id
      | .error _ => r.isUp id := by
  cases h : q.defect? with
  | some d => rw [register_of_defect h]
  | none =>
    rw [isUp, get?_register_of_sound h, register_of_sound h]
    dsimp only
    by_cases heq : id = r.idFor now q
    · rw [if_pos heq, if_pos heq.symm]
      rfl
    · rw [if_neg heq, if_neg (Ne.symm heq)]
      rfl

theorem isUp_deregister :
    (r.deregister given).state.isUp id = if given = id then false else r.isUp id := by
  rw [isUp, get?_deregister]
  by_cases heq : id = given
  · rw [if_pos heq, if_pos heq.symm]
    rfl
  · rw [if_neg heq, if_neg (Ne.symm heq)]
    rfl

/-- After a call an id stands as the call bears on it, and as before when it does not. -/
theorem isUp_run (c : Change) :
    (c.run now r).1.isUp id = (c.bearing id (c.echo now r)).getD (r.isUp id) := by
  cases c with
  | register q =>
    rw [Change.run, Change.echo, isUp_register]
    cases (r.register now q).answer with
    | error d => rfl
    | ok given =>
      simp only [Change.bearing]
      split <;> rfl
  | deregister given =>
    rw [Change.run, Change.echo, isUp_deregister, deregister_answer]
    by_cases heq : given = id
    · subst heq
      cases h : r.get? given <;> simp [Change.bearing, isUp, h]
    · simp [Change.bearing, heq]
  | fold given healthy =>
    rw [Change.run, Change.echo, isUp_fold]
    simp only [Change.bearing]
    split <;> rfl
  | foldProbed copy healthy =>
    rw [Change.run, Change.echo, isUp_foldProbed]
    simp only [Change.bearing]
    split <;> rfl

end Call

/-! ### Runs -/

/-- The bearings on an id of the calls of a run. -/
def bearings (id : String) (r : Registry) : List (Instant × Change) → List Bool
  | [] => []
  | (now, c) :: rest =>
    (c.bearing id (c.echo now r)).toList ++ bearings id (c.run now r).1 rest

/-- How an id stands after a run is told by the last call that had a bearing on it. -/
theorem isUp_run_all (id : String) (r : Registry) (calls : List (Instant × Change)) :
    (r.run calls).1.isUp id = (r.bearings id calls).getLast?.getD (r.isUp id) := by
  induction calls generalizing r with
  | nil => rfl
  | cons e rest ih =>
    obtain ⟨now, c⟩ := e
    have hrun : (r.run ((now, c) :: rest)).1 = ((c.run now r).1.run rest).1 := rfl
    rw [hrun, ih, isUp_run, bearings, List.getLast?_append]
    cases hlast : (bearings id (c.run now r).1 rest).getLast? with
    | some b => rfl
    | none => cases c.bearing id (c.echo now r) <;> rfl

/-- An id stands as a call bears on it until a call bears on it in the other way. -/
theorem isUp_run_of_bearing {id : String} {r : Registry} {now : Instant} {c : Change}
    {up : Bool} {rest : List (Instant × Change)} (h : c.bearing id (c.echo now r) = some up)
    (since : (!up) ∉ (c.run now r).1.bearings id rest) :
    (r.run ((now, c) :: rest)).1.isUp id = up := by
  have hall : ∀ b ∈ r.bearings id ((now, c) :: rest), b = up := by
    intro b hb
    rw [bearings, h] at hb
    rcases List.mem_cons.1 hb with rfl | hb
    · rfl
    · by_contra hne
      exact since (Bool.eq_not_of_ne hne ▸ hb)
  rw [isUp_run_all]
  cases hlast : (r.bearings id ((now, c) :: rest)).getLast? with
  | some b => exact hall b (List.mem_of_getLast? hlast)
  | none =>
    rw [List.getLast?_eq_none_iff, bearings, h] at hlast
    nomatch hlast

/-! ### Instances of a service -/

/-- That an instance is a healthy record of a service. -/
structure Serves (r : Registry) (service : String) (i : Instance) : Prop where
  held : r.get? i.id = some i
  named : i.name = service
  healthy : i.status = .healthy

end Registry

namespace Chronicle.Numbered

variable {w : Chronicle}

/-- The healthy instances of a service are those that are looked up as such. -/
theorem mem_healthy_iff (hw : Numbered w) {service : String} {i : Instance} :
    i ∈ w.registry.healthy service ↔ w.registry.Serves service i := by
  rw [Registry.healthy, List.mem_filter, Bool.and_eq_true, beq_iff_eq, Instance.isHealthy,
    beq_iff_eq]
  constructor
  · rintro ⟨hmem, hname, hstatus⟩
    exact ⟨held_of_shown hw (.inl hmem), hname, hstatus⟩
  · rintro ⟨hheld, hname, hstatus⟩
    exact ⟨(Keyed.mem_values_iff _).2 ⟨_, hheld⟩, hname, hstatus⟩

/-- An id holds a healthy record just when that serves some service. -/
theorem isUp_iff (hw : Numbered w) (id : String) :
    w.registry.isUp id = true ↔ ∃ i, i.id = id ∧ w.registry.Serves i.name i := by
  constructor
  · intro h
    rw [Registry.isUp, Option.any_eq_true] at h
    obtain ⟨i, hi, hhealthy⟩ := h
    have hid : i.id = id := (hw.entered id).own i hi
    exact ⟨i, hid, hid ▸ hi, rfl, beq_iff_eq.1 hhealthy⟩
  · rintro ⟨i, rfl, h⟩
    rw [Registry.isUp, h.held]
    exact beq_iff_eq.2 h.healthy

end Chronicle.Numbered

end Switchyard
